import SheddingQueue.Ring.Contents

/-!
# Rings on a machine

A machine counts in words. There the operations of a ring can go wrong: a sum may be too large for
a word, a difference may be negative, a remainder may be taken by zero, and an index may lie beyond
the slots. The careful operations of this module take every such step only if it goes well, and
give nothing otherwise. On a ring that holds some items in no more slots than a word can count they
never give nothing, and give what the operations of `Ring` give.
-/

namespace SheddingQueue

namespace Word

/-- The least number that a word of 64 bits cannot hold. -/
def bound : Nat := 18446744073709551616

def add? (a b : Nat) : Option Nat := if a + b < bound then some (a + b) else none

def sub? (a b : Nat) : Option Nat := if b ≤ a then some (a - b) else none

def mod? (a b : Nat) : Option Nat := if 0 < b then some (a % b) else none

theorem add?_eq {a b : Nat} (h : a + b < bound) : add? a b = some (a + b) := if_pos h

theorem sub?_eq {a b : Nat} (h : b ≤ a) : sub? a b = some (a - b) := if_pos h

theorem mod?_eq {a b : Nat} (h : 0 < b) : mod? a b = some (a % b) := if_pos h

end Word

namespace Ring

variable {α : Type}

/-- Write to a slot, if there is such a slot. -/
def store? (r : Ring α) (i : Nat) (content : Option α) : Option (Array (Option α)) :=
  if i < r.size then some (r.slots.setIfInBounds i content) else none

def carefulNext (r : Ring α) (i : Nat) : Option Nat := do
  let j ← Word.add? i 1
  Word.mod? j r.size

def carefulFull (r : Ring α) : Option Bool := do
  let next ← r.carefulNext r.writeAt
  return next == r.readAt

def carefulCount (r : Ring α) : Option Nat :=
  if r.readAt ≤ r.writeAt then Word.sub? r.writeAt r.readAt
  else do
    let tail ← Word.sub? r.size r.readAt
    Word.add? tail r.writeAt

def carefulPush (r : Ring α) (x : α) : Option (Option (Ring α)) := do
  let next ← r.carefulNext r.writeAt
  if next == r.readAt then return none
  else
    let slots ← r.store? r.writeAt (some x)
    return some { r with slots := slots, writeAt := next }

def carefulPop (r : Ring α) : Option (Option α × Ring α) :=
  if r.isEmpty then some (none, r)
  else do
    let x ← r.slots[r.readAt]?
    let slots ← r.store? r.readAt none
    let next ← r.carefulNext r.readAt
    return (x, { r with slots := slots, readAt := next })

/-- No operation on the ring goes wrong on a machine, and all come to the same there. -/
structure IsSafe (r : Ring α) : Prop where
  full : r.carefulFull = some r.isFull
  count : r.carefulCount = some r.count
  push : ∀ x, r.carefulPush x = some (r.push? x)
  pop : r.carefulPop = some r.pop

theorem carefulNext_eq {r : Ring α} {i : Nat} (hi : i < r.size) (hr : r.size < Word.bound) :
    r.carefulNext i = some (r.next i) := by
  have hsum : Word.add? i 1 = some (i + 1) := Word.add?_eq (by omega)
  have hmod : Word.mod? (i + 1) r.size = some (r.next i) := Word.mod?_eq (by omega)
  rw [carefulNext, hsum]
  exact hmod

theorem store?_eq {r : Ring α} {i : Nat} (hi : i < r.size) (content : Option α) :
    r.store? i content = some (r.slots.setIfInBounds i content) := if_pos hi

namespace Holds

variable {r : Ring α} {xs : List α}

theorem carefulFull_eq (h : r.Holds xs) (hr : r.size < Word.bound) :
    r.carefulFull = some r.isFull := by
  rw [carefulFull, carefulNext_eq h.writeAt_lt hr]
  rfl

theorem carefulCount_eq (h : r.Holds xs) (hr : r.size < Word.bound) :
    r.carefulCount = some r.count := by
  have hread := h.readAt_lt
  have hwrite := h.writeAt_lt
  rw [carefulCount, Ring.count]
  by_cases hle : r.readAt ≤ r.writeAt
  · rw [if_pos hle, if_pos hle, Word.sub?_eq hle]
  · have htail : Word.sub? r.size r.readAt = some (r.size - r.readAt) := Word.sub?_eq (by omega)
    rw [if_neg hle, if_neg hle, htail]
    exact Word.add?_eq (by omega)

theorem carefulPush_eq (h : r.Holds xs) (hr : r.size < Word.bound) (x : α) :
    r.carefulPush x = some (r.push? x) := by
  rw [carefulPush, carefulNext_eq h.writeAt_lt hr, Ring.push?, isFull, store?_eq h.writeAt_lt]
  show (if r.next r.writeAt == r.readAt then _ else _) = _
  split <;> rfl

theorem carefulPop_eq (h : r.Holds xs) (hr : r.size < Word.bound) :
    r.carefulPop = some r.pop := by
  rw [carefulPop, Ring.pop]
  by_cases hempty : r.isEmpty = true
  · rw [if_pos hempty, if_pos hempty]
  · have hread : r.slots[r.readAt]? = some r.slots[r.readAt]?.join := by
      have hx := h.slots_eq 0 (Nat.lt_of_le_of_lt (Nat.zero_le _) h.readAt_lt)
      rw [Nat.add_zero, Nat.mod_eq_of_lt h.readAt_lt] at hx
      rw [hx]
      rfl
    rw [if_neg hempty, if_neg hempty, hread, store?_eq h.readAt_lt, carefulNext_eq h.readAt_lt hr]
    rfl

/-- Whoever counts the slots in words need not check anything. -/
theorem isSafe (h : r.Holds xs) (hr : r.size < Word.bound) : r.IsSafe :=
  ⟨h.carefulFull_eq hr, h.carefulCount_eq hr, h.carefulPush_eq hr, h.carefulPop_eq hr⟩

end Holds

end Ring

end SheddingQueue
