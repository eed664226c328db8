import SheddingQueue.Producer
import SheddingQueue.Queue.Contents

/-!
# The attempts of a call

A producer that retries makes one attempt after another. `visits` lists the queues that these find,
and `Settles` says all that such a call can come to: all attempts but the last one find no room and
leave the queue as it is, and the last one either stores the frame or finds the queue closed.
-/

namespace SheddingQueue

theorem Queue.full_of_offer {α : Type} {q after : Queue α} {x y : α}
    (h : q.offer x = (.refused .full y, after)) : q.closed = false ∧ q.ring.isFull = true := by
  rw [offer] at h
  split at h
  · cases h
  · rename_i hopen
    rw [Ring.push?] at h
    by_cases hfull : q.ring.isFull = true
    · exact ⟨by simpa using hopen, hfull⟩
    · rw [if_neg hfull] at h
      cases h

namespace Producer

variable {f : Frame} {q last after : Queue Frame} {earlier qs : List (Queue Frame)} {r : Result}

/-- The queue that an attempt acts on, after the others have done what they do around it. -/
def Others.lead (others : Others) (q : Queue Frame) : Queue Frame :=
  if (others.before q).offerWaits then others.during (others.before q) else others.before q

theorem offerWithin_lead (others : Others) (q : Queue Frame) (f : Frame) :
    (others.before q).offerWithin others.during f = (others.lead q).offer f := by
  rw [Queue.offerWithin, Others.lead]
  split <;> rfl

/-- The queues that the attempts of a call act on, one after another. -/
def visits (f : Frame) : List Others → Queue Frame → List (Queue Frame)
  | [], q => [q]
  | others :: later, q =>
    match (others.lead q).offer f with
    | (.refused .full _, after) => others.lead q :: visits f later after
    | _ => [others.lead q]

/-- What a call comes to whose attempts found the queues `earlier`, and then `last`. -/
structure Settles (f : Frame) (earlier : List (Queue Frame)) (last : Queue Frame) (r : Result) :
    Prop where
  /-- An attempt that is followed by another one finds an open queue without room. -/
  full : ∀ c ∈ earlier,
    c.closed = false ∧ c.ring.isFull = true ∧ c.offer f = (.refused .full f, c)
  /-- The last attempt stores the frame, or hands it back since the queue is closed. -/
  decided : (last.closed = false ∧ r.answer = .accepted ∧
      ∀ n xs, last.Stores n xs → r.queue.Stores n (xs ++ [f])) ∨
    (last.closed = true ∧ r.answer = .refused .closed f ∧ r.queue = last)
  events : r.events =
    List.replicate earlier.length (.noted (.retrying f.seq)) ++ report f.seq r.answer
  texts : (notices r.events).map Notice.text =
    List.replicate earlier.length "frame queue full; waiting to enqueue" ++
      [if last.closed then "frame queue closed; frame rejected" else "frame enqueued"]
  enqueued : increments .enqueued r.events = if last.closed then 0 else 1
  /-- No other counter changes, not even the one of frames that were given up. -/
  uncounted : ∀ c, c ≠ .enqueued → increments c r.events = 0

theorem notices_retrying (k : Nat) (seq : Option UInt64) :
    notices (List.replicate k (.noted (.retrying seq))) = List.replicate k (.retrying seq) :=
  List.filterMap_replicate_of_some rfl

theorem increments_retrying (k : Nat) (seq : Option UInt64) (c : Counter) :
    increments c (List.replicate k (.noted (.retrying seq))) = 0 :=
  List.count_eq_zero.mpr fun h => nomatch List.eq_of_mem_replicate h

/-- The last attempt decides what the call comes to, unless it finds no room either. -/
theorem settles_of_offer (hfull : ∀ c ∈ earlier, c.offer f = (.refused .full f, c))
    {answer : Admission Frame} (hlast : last.offer f = (answer, after))
    (hsettled : ∀ g, answer ≠ .refused .full g) :
    Settles f earlier last ⟨answer, after,
      List.replicate earlier.length (.noted (.retrying f.seq)) ++ report f.seq answer⟩ := by
  have hearlier : ∀ c ∈ earlier,
      c.closed = false ∧ c.ring.isFull = true ∧ c.offer f = (.refused .full f, c) := by
    intro c hc
    obtain ⟨hopen, hring⟩ := Queue.full_of_offer (hfull c hc)
    exact ⟨hopen, hring, hfull c hc⟩
  match answer, hlast, hsettled with
  | .accepted, hlast, _ =>
    have hopen : last.closed = false := by
      rw [← Bool.not_eq_true]
      intro hc
      rw [Queue.offer_of_closed hc] at hlast
      cases hlast
    have hstored : ∀ n xs, last.Stores n xs → after.Stores n (xs ++ [f]) := by
      intro n xs hs
      rcases hs.offer_cases f with ⟨-, ho⟩ | ⟨-, -, ho⟩ | ⟨-, -, q, ho, -, hq⟩ <;>
        cases ho.symm.trans hlast
      exact hq
    refine ⟨hearlier, .inl ⟨hopen, rfl, hstored⟩, rfl, ?_, ?_, ?_⟩
    · rw [hopen, notices_append, notices_retrying, List.map_append, List.map_replicate]
      rfl
    · rw [hopen, increments_append, increments_retrying]
      rfl
    · intro c hc
      rw [increments_append, increments_retrying]
      cases c <;> first | rfl | exact absurd rfl hc
  | .refused .full g, _, hsettled => exact absurd rfl (hsettled g)
  | .refused .closed g, hlast, _ =>
    have hclosed := Queue.closed_of_offer hlast
    obtain ⟨rfl, rfl⟩ := Queue.eq_of_offer_refused hlast
    refine ⟨hearlier, .inr ⟨hclosed, rfl, rfl⟩, rfl, ?_, ?_, ?_⟩
    · rw [hclosed, notices_append, notices_retrying, List.map_append, List.map_replicate]
      rfl
    · rw [hclosed, increments_append, increments_retrying]
      rfl
    · intro c hc
      rw [increments_append, increments_retrying]
      cases c <;> rfl

/-- An attempt that finds no room adds one record, and what comes after it settles the frame. -/
theorem Settles.again {c : Queue Frame} (hc : c.offer f = (.refused .full f, c))
    (h : Settles f earlier last r) :
    Settles f (c :: earlier) last { r with events := .noted (.retrying f.seq) :: r.events } := by
  obtain ⟨hopen, hring⟩ := Queue.full_of_offer hc
  refine ⟨?_, h.decided, ?_, ?_, ?_, ?_⟩
  · intro d hd
    rcases List.mem_cons.mp hd with rfl | hd
    · exact ⟨hopen, hring, hc⟩
    · exact h.full d hd
  · exact congrArg (_ :: ·) h.events
  · exact congrArg (_ :: ·) h.texts
  · rw [increments_noted]
    exact h.enqueued
  · intro c hc
    rw [increments_noted]
    exact h.uncounted c hc

/-! ## Attempts one after another -/

theorem attempt_full {others : Others} (later : List Others)
    (h : (others.lead q).offer f = (.refused .full f, others.lead q)) :
    retry f.seq (others :: later) q f = ((retry f.seq later (others.lead q) f).map fun r =>
      { r with events := .noted (.retrying f.seq) :: r.events }) ∧
    visits f (others :: later) q = others.lead q :: visits f later (others.lead q) := by
  rw [retry, visits, offerWithin_lead, h]
  exact ⟨rfl, rfl⟩

theorem attempt_last {others : Others} (later : List Others) {answer : Admission Frame}
    (h : (others.lead q).offer f = (answer, after)) (hsettled : ∀ g, answer ≠ .refused .full g) :
    retry f.seq (others :: later) q f = some ⟨answer, after, report f.seq answer⟩ ∧
      visits f (others :: later) q = [others.lead q] := by
  rw [retry, visits, offerWithin_lead, h]
  match answer, hsettled with
  | .accepted, _ => exact ⟨rfl, rfl⟩
  | .refused .full g, hsettled => exact absurd rfl (hsettled g)
  | .refused .closed g, _ => exact ⟨rfl, rfl⟩

/-- A call that returns has settled the frame at its last attempt. -/
theorem retry_settles {others : List Others} (h : retry f.seq others q f = some r) :
    ∃ earlier last, visits f others q = earlier ++ [last] ∧ Settles f earlier last r := by
  induction others generalizing q r with
  | nil =>
    rw [retry] at h
    split at h
    · cases h
    · rename_i hwaits
      cases h
      rcases ho : q.offer f with ⟨answer, after⟩
      refine ⟨[], q, rfl, settles_of_offer (List.forall_mem_nil _) ho ?_⟩
      rintro g rfl
      obtain ⟨hopen, hfull⟩ := Queue.full_of_offer ho
      exact hwaits (by simp [Queue.offerWaits, hopen, hfull])
  | cons others later ih =>
    rcases ho : (others.lead q).offer f with ⟨answer, after⟩
    by_cases hfull : ∃ g, answer = .refused .full g
    · obtain ⟨g, rfl⟩ := hfull
      obtain ⟨rfl, rfl⟩ := Queue.eq_of_offer_refused ho
      obtain ⟨hretry, hvisits⟩ := attempt_full later ho
      rw [hretry] at h
      obtain ⟨rest, hrest, rfl⟩ := Option.map_eq_some_iff.mp h
      obtain ⟨earlier, last, hlater, hsettles⟩ := ih hrest
      refine ⟨others.lead q :: earlier, last, ?_, hsettles.again ho⟩
      rw [hvisits, hlater, List.cons_append]
    · have hsettled : ∀ g, answer ≠ .refused .full g := fun g hg => hfull ⟨g, hg⟩
      obtain ⟨hretry, hvisits⟩ := attempt_last later ho hsettled
      rw [hretry] at h
      cases h
      exact ⟨[], others.lead q, hvisits, settles_of_offer (List.forall_mem_nil _) ho hsettled⟩

/-! ## Given queues -/

/-- Others who see to it that an attempt acts on a given queue. -/
def Others.leadTo (q : Queue Frame) : Others := ⟨fun _ => q, fun _ => q⟩

theorem lead_leadTo (c q : Queue Frame) : (Others.leadTo c).lead q = c := by
  rw [Others.lead]
  split <;> rfl

/-- Any queues can be those that the attempts of a call act on, as long as the first ones have no
room and the last one settles the call. -/
theorem retry_leadTo {answer : Admission Frame}
    (hfull : ∀ c ∈ earlier, c.offer f = (.refused .full f, c))
    (hlast : last.offer f = (answer, after)) (hsettled : ∀ g, answer ≠ .refused .full g)
    (q : Queue Frame) : ∃ others,
      retry f.seq others q f = some ⟨answer, after,
        List.replicate earlier.length (.noted (.retrying f.seq)) ++ report f.seq answer⟩ ∧
      visits f others q = earlier ++ [last] := by
  induction earlier generalizing q with
  | nil =>
    have ho : ((Others.leadTo last).lead q).offer f = (answer, after) := by rw [lead_leadTo, hlast]
    obtain ⟨hretry, hvisits⟩ := attempt_last [] ho hsettled
    rw [lead_leadTo] at hvisits
    exact ⟨[.leadTo last], hretry, hvisits⟩
  | cons c earlier ih =>
    have hc := hfull c List.mem_cons_self
    have ho : ((Others.leadTo c).lead q).offer f =
        (.refused .full f, (Others.leadTo c).lead q) := by
      rw [lead_leadTo, hc]
    obtain ⟨later, hlater, hrest⟩ := ih (fun d hd => hfull d (List.mem_cons_of_mem c hd)) c
    obtain ⟨hretry, hvisits⟩ := attempt_full later ho
    rw [lead_leadTo] at hretry hvisits
    refine ⟨.leadTo c :: later, ?_, ?_⟩
    · rw [hretry, hlater]
      rfl
    · rw [hvisits, hrest, List.cons_append]

end Producer

end SheddingQueue
