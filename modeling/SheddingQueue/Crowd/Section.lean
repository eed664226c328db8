import SheddingQueue.Crowd

/-!
# The calls of a queue, lock by lock

A thread that has the lock of a queue either gives it up to wait, and finds whatever queue is there
when it has the lock again, or it leaves the lock for good. Here each call is written out in this
way, with the thread that it wakes. A call that may wait does not fall back on the one that never
does: both test and change the queue on their own.
-/

namespace SheddingQueue.Crowd

/-- What a thread does from the moment on that it has the lock. -/
inductive Section (α β : Type) where
  /-- Give the lock up, with the queue as it is `left`, and wait for a signal. `again` is what comes
  next, given the queue that is found then. -/
  | wait (c : Signal) (left : Queue α) (again : Queue α → Section α β)
  /-- Leave the lock for good, wake one of those who wait for a signal, if any, and return. -/
  | leave (answer : β) (left : Queue α) (wakes : Option Signal)

/-- A time in the lock. -/
structure Visit (α : Type) where
  found : Queue α
  left : Queue α

/-- What a call comes to. -/
structure Passed (α β : Type) where
  visits : List (Visit α)
  answer : β
  wakes : Option Signal

namespace Section

variable {α β : Type}

/-- Carry a call out. `during` is what the others do to the queue while the lock is given up. -/
def pass (during : Queue α → Queue α) (found : Queue α) : Section α β → Passed α β
  | .wait _ left again =>
    let later := (again (during left)).pass during (during left)
    { later with visits := ⟨found, left⟩ :: later.visits }
  | .leave answer left wakes => ⟨[⟨found, left⟩], answer, wakes⟩

/-- Store an item behind the others. -/
def offer (x : α) (q : Queue α) : Section α (Admission α) :=
  if q.closed then .leave (.refused .closed x) q none
  else match q.ring.push? x with
    | none => .leave (.refused .full x) q none
    | some ring => .leave .accepted { q with ring := ring } (some .item)

/-- Store an item behind the others, waiting once for room. -/
def offerWithin (x : α) (q : Queue α) : Section α (Admission α) :=
  if q.ring.isFull && !q.closed then .wait .room q attempt else attempt q
where
  /-- The only attempt. -/
  attempt (q : Queue α) : Section α (Admission α) :=
    if q.closed then .leave (.refused .closed x) q none
    else match q.ring.push? x with
      | none => .leave (.refused .full x) q none
      | some ring => .leave .accepted { q with ring := ring } (some .item)

/-- Take the oldest item, if there is one. -/
def take (q : Queue α) : Section α (Option α) :=
  let (x, ring) := q.ring.pop
  .leave x { q with ring := ring } (if x.isSome then some .room else none)

/-- Take the oldest item, waiting once for one to arrive. -/
def takeWithin (q : Queue α) : Section α (Option α) :=
  if q.ring.isEmpty && !q.closed then .wait .item q attempt else attempt q
where
  /-- The only attempt. -/
  attempt (q : Queue α) : Section α (Option α) :=
    let (x, ring) := q.ring.pop
    .leave x { q with ring := ring } (if x.isSome then some .room else none)

end Section

end SheddingQueue.Crowd
