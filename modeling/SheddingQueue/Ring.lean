/-!
# Ring buffers with a gap slot

A `Ring` stores items in a fixed number of slots and never uses all of them: equal indices mean
empty, so a ring with `N` slots holds at most `N - 1` items. `Ring.toList` is the view through
which the operations are understood: `push?` appends to it and `pop` takes its head.
-/

namespace SheddingQueue

/-- `readAt` is the slot of the oldest item, `writeAt` the slot that the next item goes to. -/
structure Ring (α : Type) where
  slots : Array (Option α)
  readAt : Nat
  writeAt : Nat
  deriving DecidableEq, Repr

namespace Ring

variable {α : Type}

/-- A ring of `size` empty slots. -/
def empty (size : Nat) : Ring α := ⟨Array.replicate size none, 0, 0⟩

/-- Number of slots, the gap included. -/
def size (r : Ring α) : Nat := r.slots.size

/-- The slot after slot `i`, going round. -/
def next (r : Ring α) (i : Nat) : Nat := (i + 1) % r.size

def isEmpty (r : Ring α) : Bool := r.writeAt == r.readAt

/-- Whether only the gap slot is left. -/
def isFull (r : Ring α) : Bool := r.next r.writeAt == r.readAt

/-- Number of stored items, read off the indices. -/
def count (r : Ring α) : Nat :=
  if r.readAt ≤ r.writeAt then r.writeAt - r.readAt
  else r.size - r.readAt + r.writeAt

/-- Store an item behind the others; none if the ring is full. -/
def push? (r : Ring α) (x : α) : Option (Ring α) :=
  if r.isFull then none
  else some { r with
    slots := r.slots.setIfInBounds r.writeAt (some x)
    writeAt := r.next r.writeAt }

/-- Take the oldest item out and release its slot. The ring is unchanged if it is empty. -/
def pop (r : Ring α) : Option α × Ring α :=
  if r.isEmpty then (none, r)
  else (r.slots[r.readAt]?.join, { r with
    slots := r.slots.setIfInBounds r.readAt none
    readAt := r.next r.readAt })

/-- The stored items, oldest first. -/
def toList (r : Ring α) : List α :=
  (List.range r.count).filterMap fun k => r.slots[(r.readAt + k) % r.size]?.join

end Ring

end SheddingQueue
