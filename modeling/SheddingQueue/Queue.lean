import SheddingQueue.Ring

/-!
# The bounded queue

A `Queue` is a ring together with the flag that it has been closed. Each operation here is one
critical section: it runs with nobody else touching the queue. An operation that may wait is
given what the others do while it waits, and acts once afterwards, on whatever they left.

* `Queue.offer`, `Queue.take`: the operations that never wait;
* `Queue.offerWithin`, `Queue.takeWithin`: wait once if there is no room, or nothing to take;
* `Queue.close`: refuse all further items. What is stored can still be taken.
-/

namespace SheddingQueue

/-- Why an item was not stored. -/
inductive Refusal where
  | full
  | closed
  deriving DecidableEq, Repr

/-- The texts are part of what callers see. -/
def Refusal.message : Refusal → String
  | .full => "frame queue full"
  | .closed => "frame queue closed"

/-- The answer to an offer. A refused item is handed back. -/
inductive Admission (α : Type) where
  | accepted
  | refused (reason : Refusal) (item : α)
  deriving DecidableEq, Repr

/-- Shared by the consumer and all producers. -/
structure Queue (α : Type) where
  ring : Ring α
  closed : Bool
  deriving DecidableEq, Repr

namespace Queue

variable {α : Type}

/-- An open queue with nothing in it. One of its slots is the gap. -/
def empty (slots : Nat) : Queue α := ⟨Ring.empty slots, false⟩

/-- Number of stored items. -/
def count (q : Queue α) : Nat := q.ring.count

def isEmpty (q : Queue α) : Bool := q.ring.isEmpty

/-- The stored items, oldest first. -/
def toList (q : Queue α) : List α := q.ring.toList

/-- Store an item behind the others. A closed queue refuses as closed, whether or not it is also
full. -/
def offer (q : Queue α) (x : α) : Admission α × Queue α :=
  if q.closed then (.refused .closed x, q)
  else match q.ring.push? x with
    | some ring => (.accepted, { q with ring := ring })
    | none => (.refused .full x, q)

/-- Take the oldest item, if there is one. -/
def take (q : Queue α) : Option α × Queue α :=
  let (x, ring) := q.ring.pop
  (x, { q with ring := ring })

def close (q : Queue α) : Queue α := { q with closed := true }

/-- Whether an offer would wait for room: a closed queue never makes anyone wait. -/
def offerWaits (q : Queue α) : Bool := q.ring.isFull && !q.closed

/-- Whether a take would wait for an item. -/
def takeWaits (q : Queue α) : Bool := q.ring.isEmpty && !q.closed

/-- Offer an item, waiting once for room. `during` is what the others do to the queue meanwhile. -/
def offerWithin (during : Queue α → Queue α) (q : Queue α) (x : α) : Admission α × Queue α :=
  if q.offerWaits then (during q).offer x else q.offer x

/-- Take the oldest item, waiting once for one to arrive. `during` is what the others do to the
queue meanwhile. -/
def takeWithin (during : Queue α → Queue α) (q : Queue α) : Option α × Queue α :=
  if q.takeWaits then (during q).take else q.take

@[simp] theorem closed_close (q : Queue α) : q.close.closed = true := rfl

@[simp] theorem toList_close (q : Queue α) : q.close.toList = q.toList := rfl

theorem offer_of_closed {q : Queue α} (h : q.closed = true) (x : α) :
    q.offer x = (.refused .closed x, q) := by
  simp [offer, h]

theorem closed_of_offer {q after : Queue α} {x y : α}
    (h : q.offer x = (.refused .closed y, after)) : q.closed = true := by
  unfold offer at h
  repeat' split at h
  all_goals first | assumption | cases h

/-- An offer does not close the queue. -/
theorem closed_offer (q : Queue α) (x : α) : (q.offer x).2.closed = q.closed := by
  unfold offer
  repeat' split
  all_goals rfl

/-- An item that is refused comes back, and leaves no trace. -/
theorem eq_of_offer_refused {q after : Queue α} {reason : Refusal} {x y : α}
    (h : q.offer x = (.refused reason y, after)) : y = x ∧ after = q := by
  unfold offer at h
  repeat' split at h
  all_goals cases h
  all_goals exact ⟨rfl, rfl⟩

/-- With nobody else at work, to wait changes nothing. -/
@[simp] theorem offerWithin_id (q : Queue α) (x : α) : q.offerWithin id x = q.offer x := by
  simp [offerWithin]

@[simp] theorem takeWithin_id (q : Queue α) : q.takeWithin id = q.take := by
  simp [takeWithin]

end Queue

end SheddingQueue
