import SheddingQueue.Crowd.Section
import SheddingQueue.Proofs.Producer.Attempts

/-!
# Calls that may wait

A call that may wait does so only if it lacks what it needs, and at most once. Whatever the others
do to the queue meanwhile, it then comes to what the call that never waits comes to on the queue
that is found when the lock is had for the last time: the same answer, the same queue left behind,
and the same thread woken. So where nobody else is at work it makes no difference whether a call may
wait, unless it would have to wait for ever.
-/

namespace SheddingQueue

namespace Crowd.Section

variable {α β : Type} {during : Queue α → Queue α} {q : Queue α} {x : α}

/-- A call that passed with the visits `earlier`, and then `last`, has followed the call `plain`.
`lacking` says whether it lacked what it needs in the queue `q` that it found at first. -/
structure Follows (during : Queue α → Queue α) (q : Queue α) (lacking : Prop)
    (plain : Queue α → Section α β) (p : Passed α β) (earlier : List (Visit α)) (last : Visit α) :
    Prop where
  visits_eq : p.visits = earlier ++ [last]
  /-- Before it waits it changes nothing, and then it goes by the queue that the others leave. -/
  waits : earlier = [] ∧ last.found = q ∧ ¬lacking ∨
    earlier = [⟨q, q⟩] ∧ last.found = during q ∧ lacking
  follows : (plain last.found).pass during last.found = ⟨[last], p.answer, p.wakes⟩

/-! ## One time in the lock -/

/-- Whom a call wakes that offered an item. -/
def wakesOffered : Admission α → Option Signal
  | .accepted => some .item
  | .refused .. => none

/-- Whom a call wakes that wanted to take an item. -/
def wakesTook : Option α → Option Signal
  | some _ => some .room
  | none => none

theorem pass_offer (during : Queue α → Queue α) (q : Queue α) (x : α) :
    (offer x q).pass during q =
      ⟨[⟨q, (q.offer x).2⟩], (q.offer x).1, wakesOffered (q.offer x).1⟩ := by
  rw [offer, Queue.offer]
  by_cases hclosed : q.closed = true
  · rw [if_pos hclosed, if_pos hclosed]
    rfl
  · rw [if_neg hclosed, if_neg hclosed]
    cases q.ring.push? x <;> rfl

theorem pass_take (during : Queue α → Queue α) (q : Queue α) :
    (take q).pass during q =
      ⟨[⟨q, q.take.2⟩], q.take.1, wakesTook q.take.1⟩ := by
  rcases ht : q.ring.pop with ⟨x, ring⟩
  rw [take, Queue.take, ht]
  cases x <;> rfl

/-! ## Waiting once -/

/-- A call with one attempt, which it puts off until it has waited if it lacks what it needs, follows
any call that makes the attempt at once. Both do what `act` does to the queue that they find. -/
theorem follows_of_attempt {lacking : Prop} [Decidable lacking] {c : Signal}
    {waiting attempt plain : Queue α → Section α β} {act : Queue α → β × Queue α}
    {wakes : β → Option Signal}
    (hwaiting : waiting q = if lacking then .wait c q attempt else attempt q)
    (hattempt : ∀ r, attempt r = plain r)
    (hplain : ∀ r, (plain r).pass during r = ⟨[⟨r, (act r).2⟩], (act r).1, wakes (act r).1⟩) :
    let p := (waiting q).pass during q
    ∃ earlier last, Follows during q lacking plain p earlier last ∧
      act last.found = (p.answer, last.left) ∧
      (if lacking then act (during q) else act q) = (p.answer, last.left) := by
  rw [hwaiting]
  by_cases hlacking : lacking
  · have hpass := hplain (during q)
    rw [if_pos hlacking, if_pos hlacking, pass, hattempt, hpass]
    exact ⟨[⟨q, q⟩], ⟨during q, _⟩, ⟨rfl, .inr ⟨rfl, rfl, hlacking⟩, hpass⟩, rfl, rfl⟩
  · have hpass := hplain q
    rw [if_neg hlacking, if_neg hlacking, hattempt, hpass]
    exact ⟨[], ⟨q, _⟩, ⟨rfl, .inl ⟨rfl, rfl, hlacking⟩, hpass⟩, rfl, rfl⟩

theorem follows_offer (during : Queue α → Queue α) (q : Queue α) (x : α) :
    let p := (offerWithin x q).pass during q
    ∃ earlier last,
      Follows during q (q.ring.isFull = true ∧ q.closed = false) (offer x) p earlier last ∧
        last.found.offer x = (p.answer, last.left) ∧
        q.offerWithin during x = (p.answer, last.left) := by
  have hwaiting : offerWithin x q = if q.ring.isFull = true ∧ q.closed = false then
      .wait .room q (offerWithin.attempt x) else offerWithin.attempt x q := by
    simp only [offerWithin, Bool.and_eq_true, Bool.not_eq_true']
  have hwithin : q.offerWithin during x = if q.ring.isFull = true ∧ q.closed = false then
      (during q).offer x else q.offer x := by
    simp only [Queue.offerWithin, Queue.offerWaits, Bool.and_eq_true, Bool.not_eq_true']
  rw [hwithin]
  exact follows_of_attempt hwaiting (fun _ => rfl) fun r => pass_offer during r x

theorem follows_take (during : Queue α → Queue α) (q : Queue α) :
    let p := (takeWithin q).pass during q
    ∃ earlier last,
      Follows during q (q.ring.isEmpty = true ∧ q.closed = false) take p earlier last ∧
        last.found.take = (p.answer, last.left) ∧
        q.takeWithin during = (p.answer, last.left) := by
  have hwaiting : takeWithin q = if q.ring.isEmpty = true ∧ q.closed = false then
      .wait .item q takeWithin.attempt else takeWithin.attempt q := by
    simp only [takeWithin, Bool.and_eq_true, Bool.not_eq_true']
  have hwithin : q.takeWithin during = if q.ring.isEmpty = true ∧ q.closed = false then
      (during q).take else q.take := by
    simp only [Queue.takeWithin, Queue.takeWaits, Bool.and_eq_true, Bool.not_eq_true']
  rw [hwithin]
  exact follows_of_attempt hwaiting (fun _ => rfl) fun r => pass_take during r

/-! ## Producers that nobody disturbs -/

theorem lead_undisturbed (q : Queue Frame) : Producer.Others.lead {} q = q := by
  rw [Producer.Others.lead]
  split <;> rfl

/-- A producer that retries and that nobody disturbs gives the answer of an offer, unless the queue
is full and open: then it never returns, however often it tries. -/
theorem retry_undisturbed (attempts : Nat) (q : Queue Frame) (f : Frame) :
    Producer.retry f.seq (List.replicate attempts {}) q f =
      if q.ring.isFull = true ∧ q.closed = false then none
      else some (Producer.decide f.seq (q.offer f)) := by
  have hwaits : q.offerWaits = true ↔ q.ring.isFull = true ∧ q.closed = false := by
    simp only [Queue.offerWaits, Bool.and_eq_true, Bool.not_eq_true']
  induction attempts with
  | zero => simp only [List.replicate_zero, Producer.retry, hwaits]
  | succ attempts ih =>
    rw [List.replicate_succ]
    by_cases hlacks : q.ring.isFull = true ∧ q.closed = false
    · have hfull : (Producer.Others.lead {} q).offer f =
          (.refused .full f, Producer.Others.lead {} q) := by
        rw [lead_undisturbed, Queue.offer, Ring.push?, if_neg (by simp [hlacks.2]),
          if_pos hlacks.1]
      rw [(Producer.attempt_full _ hfull).1, lead_undisturbed, ih, if_pos hlacks]
      rfl
    · rcases ho : q.offer f with ⟨answer, after⟩
      have hlast : (Producer.Others.lead {} q).offer f = (answer, after) := by
        rw [lead_undisturbed, ho]
      have hsettled : ∀ g, answer ≠ .refused .full g := by
        rintro g rfl
        obtain ⟨hopen, hfull⟩ := Queue.full_of_offer ho
        exact hlacks ⟨hfull, hopen⟩
      rw [(Producer.attempt_last _ hlast hsettled).1, if_neg hlacks]
      rfl

/-- Calls that may wait agree with those that never do. Each waits only if it lacks what it needs,
and then comes to what the other one comes to on the queue found last. So they agree on every queue
if nobody else is at work, and so does a producer with an offer, unless it retries on a queue that
is full and open. -/
theorem waiting_follows_plain {α : Type} :
    (∀ (during : Queue α → Queue α) (q : Queue α) (x : α),
      let p := (offerWithin x q).pass during q
      ∃ earlier last,
        Follows during q (q.ring.isFull = true ∧ q.closed = false) (offer x) p earlier last ∧
          last.found.offer x = (p.answer, last.left) ∧
          q.offerWithin during x = (p.answer, last.left)) ∧
    (∀ (during : Queue α → Queue α) (q : Queue α),
      let p := (takeWithin q).pass during q
      ∃ earlier last,
        Follows during q (q.ring.isEmpty = true ∧ q.closed = false) take p earlier last ∧
          last.found.take = (p.answer, last.left) ∧
          q.takeWithin during = (p.answer, last.left)) ∧
    (∀ (q : Queue α) (x : α), q.offerWithin id x = q.offer x ∧ q.takeWithin id = q.take) ∧
    ∀ (policy : Policy) (attempts : Nat) (q : Queue Frame) (f : Frame),
      (Producer.enqueue policy (List.replicate attempts {}) q f).map
          (fun r => (r.answer, r.queue)) =
        match policy with
        | .drop => some (q.offer f)
        | .retry _ =>
          if q.ring.isFull = true ∧ q.closed = false then none else some (q.offer f) := by
  refine ⟨follows_offer, follows_take,
    fun q x => ⟨Queue.offerWithin_id q x, Queue.takeWithin_id q⟩, ?_⟩
  intro policy attempts q f
  cases policy with
  | drop => rfl
  | retry interval =>
    rw [Producer.enqueue, retry_undisturbed]
    by_cases hlacks : q.ring.isFull = true ∧ q.closed = false
    · rw [if_pos hlacks, if_pos hlacks]
      rfl
    · rw [if_neg hlacks, if_neg hlacks]
      rfl

end Crowd.Section

end SheddingQueue
