import SheddingQueue.Proofs.Closing
import SheddingQueue.Proofs.Consumer.Sparing

/-!
# Calls that come to nothing

A call that is refused, or finds no frame to take, leaves the queue as it found it, with every slot
and both indices (`Session.traceless_of_vain`). Some operations are more than one call. If one of
their calls comes to nothing, the rest of them is an operation of its own, `Operation.Rest` says
which, and leads to the same session (`Session.replaces_of_rest`).
-/

namespace SheddingQueue

/-! ## Which calls come to nothing -/

/-- The operation that a release is. -/
def Release.operation (producer : Nat) : Release → Operation
  | .take => .take
  | .closeQueue => .closeQueue
  | .closeProducer => .closeProducer producer
  | .dropQueue => .dropQueue

/-- A call that came to nothing, as its reply says: its frame was refused, or it found none. -/
inductive Operation.Vain : Operation → Reply → Prop where
  | offer {p : Nat} {source : Source} {reason : Refusal} {f : Frame} :
      Vain (.offer p source) (.refused reason f)
  | enqueue {p : Nat} {source : Source} {reason : Refusal} {f : Frame} :
      Vain (.enqueue p source) (.refused reason f)
  | take : Vain .take (.took none)
  | takeWithin : Vain .takeWithin (.took none)
  | step {renderer : Renderer} {calls : List Call} : Vain (.step renderer) (.outcome .idle calls)

/-- An operation that is more than one call, one of which came to nothing, as the reply says. What is
left without this call is an operation with a reply of its own. Sometimes one has to know whether
the queue had been closed before. -/
inductive Operation.Rest (wasClosed : Bool) : Operation → Reply → Operation → Reply → Prop where
  /-- The last frame was refused. -/
  | fill {p first count accepted : Nat} {refused : Refusal × Frame} :
      Rest wasClosed (.fill p first count) (.filled accepted (some refused))
        (.fill p first accepted) (.filled accepted none)
  /-- The last take found nothing. -/
  | drain {most : Nat} {seqs : List (Option UInt64)} : seqs.length < most →
      Rest wasClosed (.drain most) (.drained seqs) (.drain seqs.length) (.drained seqs)
  /-- The frame was refused, whatever was taken out meanwhile or afterwards. -/
  | take {p : Nat} {source : Source} {seen : Bool} {took : Option Frame} {reason : Refusal}
      {f : Frame} :
      Rest wasClosed (.blockedEnqueue p source seen .take) (.released took (.refused reason f))
        .take (.took took)
  /-- The frame was refused, be it because the queue was closed meanwhile. -/
  | close {p : Nat} {source : Source} {seen : Bool} {release : Release} {took : Option Frame}
      {reason : Refusal} {f : Frame} : release ≠ .take →
      Rest wasClosed (.blockedEnqueue p source seen release) (.released took (.refused reason f))
        (release.operation p) .done
  /-- There was nothing to take, be it that the queue was closed meanwhile. -/
  | waited {p : Nat} {closed : Bool} :
      Rest wasClosed (.waitingTake p none) (.handedOver closed none) (.closeProducer p) .done
  /-- There was nothing to take and nothing to wait for, so the frame was refused afterwards. -/
  | late {p : Nat} {source : Source} {closed : Bool} {f : Frame} : source.frame? = .ok f →
      Rest wasClosed (.waitingTake p (some source)) (.handedOver closed none)
        (.enqueue p source) (.refused .closed f)
  /-- The frame of the other side was refused. -/
  | refused {p : Nat} {source : Source} {closed : Bool} {found : Option Frame} :
      wasClosed = true → Rest wasClosed (.waitingTake p (some source)) (.handedOver closed found)
        .take (.took found)
  /-- Some calls that the renderer made came to nothing. -/
  | step {renderer : Renderer} {o : Outcome} {calls calls' : List Call} :
      List.Forall₂ Call.Spares calls calls' →
      Rest wasClosed (.step renderer) (.outcome o calls) (.step (.again calls')) (.outcome o calls')
  | handle {source : Source} {renderer : Renderer} {o : Outcome} {calls calls' : List Call} :
      List.Forall₂ Call.Spares calls calls' →
      Rest wasClosed (.handle source renderer) (.outcome o calls)
        (.handle source (.again calls')) (.outcome o calls')
  | run {renderer : Renderer} {stop : StopSignal} {bound : Nat} {t : Tally}
      {calls calls' : List Call} :
      List.Forall₂ Call.Spares calls calls' →
      Rest wasClosed (.run renderer stop bound) (.tally t calls)
        (.run (.again calls') stop bound) (.tally t calls')

/-- The frames that a reply hands back. -/
def Reply.returned : Reply → List Frame
  | .refused _ f | .filled _ (some (_, f)) | .released _ (.refused _ f) => [f]
  | .outcome _ calls | .tally _ calls => calls.flatMap Call.returned
  | _ => []

/-- The frames that were handed over and refused, as the reply says. -/
def Operation.given (op : Operation) (reply : Reply) : List Frame :=
  match op, reply with
  | .offer _ source, .refused .. | .enqueue _ source, .refused ..
  | .blockedEnqueue _ source .., .released _ (.refused ..) => source.frame?.toOption.toList
  | .fill _ first _, .filled accepted (some _) => [Session.specimen (first + accepted)]
  | _, .outcome _ calls | _, .tally _ calls => calls.flatMap Call.given
  | _, _ => []

namespace Session

variable {n : Nat} {s : Session} {op : Operation}

/-! ## What an operation needs -/

variable {p : Nat} {source : Source} {reply : Reply} {act : Performed}

theorem withProducer_eq (hp : s.hasProducer p = true) (act : Performed) :
    s.withProducer p act = act := if_pos hp

theorem withQueue_eq (hheld : s.held = true) (act : Performed) : s.withQueue act = act :=
  if_pos hheld

theorem withFrame_eq {f : Frame} (hf : source.frame? = .ok f) (act : Frame → Performed) :
    s.withFrame source act = act f := by
  rw [withFrame, hf]

theorem hasProducer_of_reply (hr : (s.withProducer p act).1 = reply) (h : reply ≠ .noProducer) :
    s.hasProducer p = true := by
  rw [withProducer] at hr
  split at hr
  · assumption
  · exact absurd hr.symm h

theorem held_of_reply (hr : (s.withQueue act).1 = reply) (h : reply ≠ .noQueue) :
    s.held = true := by
  rw [withQueue] at hr
  split at hr
  · assumption
  · exact absurd hr.symm h

theorem frame_of_reply {act : Frame → Performed} (hr : (s.withFrame source act).1 = reply)
    (h : ∀ m, reply ≠ .malformed m) : ∃ f, source.frame? = .ok f := by
  cases hf : source.frame? with
  | error m =>
    rw [withFrame, hf] at hr
    exact absurd hr.symm (h m)
  | ok f => exact ⟨f, rfl⟩

/-! ## Single calls -/

/-- An offer that is refused hands the frame back and leaves the session as it was. -/
theorem refused_of_offer {f g : Frame} {reason : Refusal}
    (hr : answered (s.queue.offer f).1 = .refused reason g) :
    { s with queue := (s.queue.offer f).2 } = s ∧ g = f := by
  rcases ho : s.queue.offer f with ⟨answer, q⟩
  rw [ho] at hr
  cases answer with
  | accepted => cases hr
  | refused reason' g' =>
    cases hr
    obtain ⟨rfl, rfl⟩ := Queue.eq_of_offer_refused ho
    exact ⟨rfl, rfl⟩

/-- An operation that changes nothing. What was refused has been handed back. -/
structure Traceless (s : Session) (op : Operation) : Prop where
  next_eq : s.next op = s
  returned_eq : (s.perform op).1.returned = op.given (s.perform op).1

variable {reason : Refusal} {g : Frame}

theorem traceless_offer (hr : (s.perform (.offer p source)).1 = .refused reason g) :
    s.Traceless (.offer p source) := by
  have hp := hasProducer_of_reply hr (by simp)
  rw [perform, withProducer_eq hp] at hr
  obtain ⟨f, hf⟩ := frame_of_reply hr (by simp)
  have hperform : s.perform (.offer p source) =
      (answered (s.queue.offer f).1, { s with queue := (s.queue.offer f).2 }, []) := by
    rw [perform, withProducer_eq hp, withFrame_eq hf]
  rw [withFrame_eq hf] at hr
  obtain ⟨hsame, rfl⟩ := refused_of_offer hr
  refine ⟨?_, ?_⟩
  · rw [next, hperform]
    exact hsame
  · rw [hperform, hr, Operation.given, hf]
    rfl

theorem traceless_enqueue (hr : (s.perform (.enqueue p source)).1 = .refused reason g) :
    s.Traceless (.enqueue p source) := by
  have hp := hasProducer_of_reply hr (by simp)
  rw [perform, withProducer_eq hp] at hr
  obtain ⟨f, hf⟩ := frame_of_reply hr (by simp)
  have hperform : s.perform (.enqueue p source) = s.enqueue [] f answered := by
    rw [perform, withProducer_eq hp, withFrame_eq hf]
  rw [withFrame_eq hf] at hr
  rcases enqueue_cases s f answered with hblocked | hdone
  · rw [hblocked] at hr
    cases hr
  · rw [hdone] at hr hperform
    obtain ⟨hsame, rfl⟩ := refused_of_offer hr
    refine ⟨?_, ?_⟩
    · rw [next, hperform]
      exact hsame
    · rw [hperform, hr, Operation.given, hf]
      rfl

theorem traceless_take (h : s.queue.Intact n) (hr : (s.perform .take).1 = .took none) :
    s.Traceless .take := by
  have hperform : s.perform .take = _ := withQueue_eq (held_of_reply hr (by simp)) _
  rcases ht : s.queue.take with ⟨found, q⟩
  rw [hperform, ht] at hr
  cases hr
  cases h.eq_of_take_none ht
  refine ⟨?_, ?_⟩
  · rw [next, hperform, ht]
  · rw [hperform, ht]
    rfl

/-- With nobody else at work it makes no difference whether a take would wait. -/
theorem perform_takeWithin (s : Session) : s.perform .takeWithin = s.perform .take := by
  rw [perform, perform, Queue.takeWithin_id]

theorem traceless_step (h : s.queue.Intact n) {renderer : Renderer} {calls : List Call}
    (hr : (s.perform (.step renderer)).1 = .outcome .idle calls) :
    s.Traceless (.step renderer) := by
  have hperform : s.perform (.step renderer) = _ := withQueue_eq (held_of_reply hr (by simp)) _
  rw [hperform] at hr
  rcases ht : s.queue.take with ⟨found, q⟩
  cases found with
  | none =>
    cases h.eq_of_take_none ht
    have hidle := Consumer.step_of_none (s := s.consumerState) ht s.watch.threshold renderer
    refine ⟨?_, ?_⟩
    · rw [next, hperform, hidle]
      rfl
    · rw [hperform, hidle]
      rfl
  | some f =>
    have hfound := Consumer.step_of_some (s := s.consumerState) ht s.watch.threshold renderer
    rw [hfound] at hr
    obtain ⟨calls, haccount⟩ := Consumer.handle_account s.watch.threshold renderer
      { s.consumerState with queue := q } f
    exact absurd (Reply.outcome.inj hr).1 haccount.handled

/-- A call that comes to nothing changes nothing, and hands back the frame that it was given. -/
theorem traceless_of_vain (h : s.queue.Intact n) (hv : op.Vain (s.perform op).1) :
    s.Traceless op := by
  generalize hr : (s.perform op).1 = reply at hv
  cases hv with
  | offer => exact traceless_offer hr
  | enqueue => exact traceless_enqueue hr
  | take => exact traceless_take h hr
  | takeWithin =>
    rw [perform_takeWithin] at hr
    obtain ⟨hnext, hreturned⟩ := traceless_take h hr
    refine ⟨?_, ?_⟩
    · rw [next, perform_takeWithin]
      exact hnext
    · rw [perform_takeWithin, hr]
      rfl
  | step => exact traceless_step h hr

/-! ## Calls that are parts of an operation -/

/-- What is left of an operation leads to the same session, with the answer `left`, and what was
refused by the operation has been handed back. -/
structure Replaces (s : Session) (op rest : Operation) (left : Reply) : Prop where
  next_eq : s.next rest = s.next op
  reply_eq : (s.perform rest).1 = left
  returned_eq : (s.perform op).1.returned = op.given (s.perform op).1

/-! ### Filling and draining -/

/-- If the last frame is refused, it is as if only the others had been offered. -/
theorem fillFrom_refused {q q' : Queue Frame} {first accepted count total : Nat}
    {refused : Refusal × Frame}
    (h : fillFrom q first accepted count = (total, some refused, q')) :
    ∃ k, total = accepted + k ∧ refused.2 = specimen (first + k) ∧
      fillFrom q first accepted k = (total, none, q') := by
  induction count generalizing q first accepted with
  | zero => cases h
  | succ count ih =>
    rw [fillFrom] at h
    split at h
    · rename_i ho
      obtain ⟨k, htotal, hrefused, hfill⟩ := ih h
      refine ⟨k + 1, by omega, ?_, ?_⟩
      · rw [hrefused, Nat.add_right_comm, Nat.add_assoc]
      · rw [fillFrom, ho]
        exact hfill
    · rename_i reason f after ho
      obtain ⟨rfl, rfl⟩ := Queue.eq_of_offer_refused ho
      cases h
      exact ⟨0, rfl, rfl, rfl⟩

/-- If the last take finds nothing, it is as if nobody had tried. -/
theorem drainFrom_length {q : Queue Frame} (h : q.Intact n) (most : Nat) :
    drainFrom q (drainFrom q most).1.length = drainFrom q most := by
  induction most generalizing q with
  | zero => rfl
  | succ most ih =>
    have htake := h.take
    rcases ht : q.take with ⟨found, after⟩
    rw [ht] at htake
    cases found with
    | none =>
      cases h.eq_of_take_none ht
      rw [drainFrom, ht]
      rfl
    | some f =>
      have hrest := ih htake
      have hdrain (m : Nat) : drainFrom q (m + 1) =
          (f :: (drainFrom after m).1, (drainFrom after m).2) := by
        rw [drainFrom, ht]
      rw [hdrain, List.length_cons, hdrain, hrest]

theorem replaces_fill {first count accepted : Nat} {refused : Refusal × Frame}
    (hr : (s.perform (.fill p first count)).1 = .filled accepted (some refused)) :
    s.Replaces (.fill p first count) (.fill p first accepted) (.filled accepted none) := by
  have hp := hasProducer_of_reply hr (by simp)
  have hperform (count : Nat) : s.perform (.fill p first count) = _ := withProducer_eq hp _
  rcases hfill : fillFrom s.queue first 0 count with ⟨total, missed, q⟩
  rw [hperform, hfill] at hr
  cases hr
  obtain ⟨k, rfl, hrefused, hthose⟩ := fillFrom_refused hfill
  rw [Nat.zero_add] at hfill hthose ⊢
  refine ⟨?_, ?_, ?_⟩
  · rw [next, next, hperform, hperform, hfill, hthose]
  · rw [hperform, hthose]
  · rw [hperform, hfill, Operation.given, ← hrefused]
    rfl

theorem replaces_drain (h : s.queue.Intact n) {most : Nat} {seqs : List (Option UInt64)}
    (hr : (s.perform (.drain most)).1 = .drained seqs) :
    s.Replaces (.drain most) (.drain seqs.length) (.drained seqs) := by
  have hheld := held_of_reply hr (by simp)
  have hperform (most : Nat) : s.perform (.drain most) = _ := withQueue_eq hheld _
  rw [hperform] at hr
  cases hr
  refine ⟨?_, ?_, ?_⟩
  · rw [next, next, hperform, hperform, List.length_map, drainFrom_length h]
  · rw [hperform, List.length_map, drainFrom_length h]
  · rw [hperform]
    rfl

/-! ### Waiting for room -/

theorem perform_release (hp : s.hasProducer p = true) (hheld : s.held = true) (release : Release) :
    s.perform (release.operation p) =
      (if release = .take then .took s.queue.take.1 else .done,
        { s with queue := Release.act release s.queue
                 held := s.held && release != .dropQueue }, []) := by
  cases release <;>
    simp [Release.operation, perform, withQueue_eq hheld, withProducer_eq hp, hheld, Release.act]

/-- The attempts of a call that waits until a release act on the queue as it is and on what the
release makes of it. -/
theorem visits_until_release {seen : Bool} {release : Release} {f : Frame} {q c : Queue Frame}
    (hwaits : q.offerWaits = true)
    (hc : c ∈ Producer.visits f
      (if seen then [{}, { during := Release.act release }] else [{ during := Release.act release }])
      q) : c = q ∨ c = Release.act release q := by
  have freed {c : Queue Frame}
      (hc : c ∈ Producer.visits f [{ during := Release.act release }] q) :
      c = Release.act release q := by
    have hlead : Producer.Others.lead { during := Release.act release } q =
      Release.act release q := if_pos hwaits
    rw [Producer.visits, hlead] at hc
    split at hc
    · rename_i ho
      obtain ⟨-, rfl⟩ := Queue.eq_of_offer_refused ho
      simpa [Producer.visits] using hc
    · exact List.mem_singleton.mp hc
  cases seen with
  | false => exact .inr (freed hc)
  | true =>
    have hlead : Producer.Others.lead {} q = q := if_pos hwaits
    rw [if_pos rfl, Producer.visits, hlead] at hc
    split at hc
    · rename_i ho
      obtain ⟨-, rfl⟩ := Queue.eq_of_offer_refused ho
      rcases List.mem_cons.mp hc with rfl | hc
      · exact .inl rfl
      · exact .inr (freed hc)
    · exact .inl (List.mem_singleton.mp hc)

/-- If a frame is refused that had to wait for room, then since the release closed the queue. -/
theorem enqueue_refused {seen : Bool} {release : Release} {f g : Frame} {reason : Refusal}
    {r : Producer.Result} (hwaits : s.enqueueWaits = true)
    (hr : Producer.enqueue s.policy
      (if seen then [{}, { during := Release.act release }] else [{ during := Release.act release }])
      s.queue f = some r) (hanswer : r.answer = .refused reason g) :
    r.queue = Release.act release s.queue ∧ g = f := by
  rw [enqueueWaits, Bool.and_eq_true] at hwaits
  obtain ⟨hpolicy, hfull⟩ := hwaits
  cases hs : s.policy with
  | drop => simp [hs] at hpolicy
  | retry interval =>
    rw [hs, Producer.enqueue] at hr
    obtain ⟨earlier, last, hvisits, hsettles⟩ := Producer.retry_settles hr
    have hlast := List.mem_append_right earlier (List.mem_singleton_self last)
    rw [← hvisits] at hlast
    rcases hsettles.decided with ⟨-, haccepted, -⟩ | ⟨hclosed, hrefused, hsame⟩
    · cases haccepted.symm.trans hanswer
    · cases hrefused.symm.trans hanswer
      -- it was full and open at first, so it was the release that closed it
      rcases visits_until_release hfull hlast with rfl | rfl
      · simp [Queue.offerWaits, hclosed] at hfull
      · exact ⟨hsame, rfl⟩

/-- If a frame is refused that was to wait for room, all that has happened is the release. -/
theorem blockedEnqueue_refused {seen : Bool} {release : Release} {f g : Frame}
    {took : Option Frame} {reason : Refusal}
    (hr : (s.blockedEnqueue seen release f).1 = .released took (.refused reason g)) :
    (s.blockedEnqueue seen release f).2.1 =
        { s with queue := Release.act release s.queue
                 held := s.held && release != .dropQueue } ∧
      took = Release.frame? s.queue release ∧ g = f := by
  rw [blockedEnqueue] at hr ⊢
  by_cases hwaits : s.enqueueWaits = true
  · rw [if_pos hwaits, enqueue] at hr ⊢
    rcases hret : Producer.enqueue s.policy _ s.queue f with _ | r
    · rw [hret] at hr
      cases hr
    · rw [hret] at hr
      obtain ⟨rfl, hanswer⟩ := Reply.released.inj hr
      obtain ⟨hqueue, rfl⟩ := enqueue_refused hwaits hret hanswer
      refine ⟨?_, rfl, rfl⟩
      dsimp only
      rw [hqueue]
  · rw [if_neg hwaits] at hr ⊢
    rcases enqueue_cases s f (.released none) with hblocked | hdone
    · rw [hblocked] at hr
      cases hr
    · rw [hdone, releaseAfter] at hr ⊢
      rcases ho : s.queue.offer f with ⟨answer, q⟩
      rw [ho] at hr
      obtain ⟨rfl, rfl⟩ := Reply.released.inj hr
      obtain ⟨rfl, rfl⟩ := Queue.eq_of_offer_refused ho
      exact ⟨rfl, rfl, rfl⟩

theorem replaces_blockedEnqueue {seen : Bool} {release : Release} {took : Option Frame}
    (hr : (s.perform (.blockedEnqueue p source seen release)).1 =
      .released took (.refused reason g)) :
    s.Replaces (.blockedEnqueue p source seen release) (release.operation p)
      (if release = .take then .took took else .done) := by
  have hp := hasProducer_of_reply hr (by simp)
  rw [perform, withProducer_eq hp] at hr
  have hheld := held_of_reply hr (by simp)
  rw [withQueue_eq hheld] at hr
  obtain ⟨f, hf⟩ := frame_of_reply hr (by simp)
  rw [withFrame_eq hf] at hr
  have hperform : s.perform (.blockedEnqueue p source seen release) =
      s.blockedEnqueue seen release f := by
    rw [perform, withProducer_eq hp, withQueue_eq hheld, withFrame_eq hf]
  obtain ⟨hs, rfl, rfl⟩ := blockedEnqueue_refused hr
  refine ⟨?_, ?_, ?_⟩
  · rw [next, next, hperform, perform_release hp hheld, hs]
  · rw [perform_release hp hheld]
    cases release <;> rfl
  · rw [hperform, hr, Operation.given, hf]
    rfl

/-! ### Waiting for a frame -/

/-- The other side of a take acts at once, unless it has to wait as well. -/
theorem otherSide_cases (policy : Policy) (q : Queue Frame) (f : Frame) :
    otherSide policy (some f) q = none ∨
      ∃ events, otherSide policy (some f) q = some ((q.offer f).2, events) := by
  rw [otherSide]
  cases policy with
  | drop => exact .inr ⟨_, rfl⟩
  | retry =>
    rw [Producer.enqueue, Producer.retry]
    split
    · exact .inl rfl
    · exact .inr ⟨_, rfl⟩

/-- If the queue is closed and the take finds nothing, all that has happened is the closing. -/
theorem waitingTake_none (h : s.queue.Intact n) {closed : Bool}
    (hr : (s.waitingTake none).1 = .handedOver closed none) :
    (s.waitingTake none).2.1 = { s with queue := s.queue.close } := by
  rw [waitingTake, otherSide] at hr ⊢
  by_cases hwaits : s.queue.takeWaits = true
  · rw [if_pos hwaits] at hr ⊢
    rcases ht : s.queue.close.take with ⟨found, q⟩
    dsimp only at hr ⊢
    rw [ht] at hr ⊢
    cases hr
    cases h.close.eq_of_take_none ht
    rfl
  · rw [if_neg hwaits] at hr ⊢
    rcases ht : s.queue.take with ⟨found, q⟩
    rw [ht] at hr
    cases hr
    cases h.eq_of_take_none ht
    rfl

/-- A take misses a frame that is enqueued meanwhile only if the queue has been closed before. -/
theorem closed_of_waitingTake (h : s.queue.Intact n) (hn : 2 ≤ n) {closed : Bool} {f : Frame}
    (hr : (s.waitingTake (some f)).1 = .handedOver closed none) : s.queue.closed = true := by
  obtain ⟨xs, hxs⟩ := h
  rw [waitingTake] at hr
  by_cases hwaits : s.queue.takeWaits = true
  · rw [if_pos hwaits] at hr
    obtain ⟨rfl, hopen⟩ := hxs.takeWaits_iff.mp hwaits
    -- there is room, so the frame is stored and found
    rcases otherSide_cases s.policy s.queue f with ho | ⟨events, ho⟩ <;> rw [ho] at hr
    · cases hr
    · rcases hxs.offer_cases f with ⟨hc, -⟩ | ⟨-, hfull, -⟩ | ⟨-, -, r, hr', -, hstored⟩
      · exact hc
      · rw [List.length_nil] at hfull
        omega
      · rcases hstored.take_cases with ⟨hnil, -⟩ | ⟨x, ys, after, -, ht, -, -⟩
        · cases hnil
        · rw [hr'] at hr
          dsimp only at hr
          rw [ht] at hr
          cases hr
  · rw [if_neg hwaits] at hr
    rcases hxs.take_cases with ⟨rfl, -⟩ | ⟨x, ys, after, -, ht, -, -⟩
    · simpa [hxs.takeWaits_iff] using hwaits
    · rw [ht] at hr
      dsimp only at hr
      rcases otherSide_cases s.policy after f with ho | ⟨events, ho⟩ <;> rw [ho] at hr <;> cases hr

/-- In a closed queue only the take has an effect. -/
theorem waitingTake_of_closed (hclosed : s.queue.closed = true) {closed : Bool}
    {found : Option Frame} {f : Frame}
    (hr : (s.waitingTake (some f)).1 = .handedOver closed found) :
    found = s.queue.take.1 ∧ (s.waitingTake (some f)).2.1 = { s with queue := s.queue.take.2 } := by
  have hwaits : s.queue.takeWaits = false := by
    rw [Queue.takeWaits, hclosed, Bool.not_true, Bool.and_false]
  have hstays : s.queue.take.2.closed = true := hclosed
  rw [waitingTake, hwaits, if_neg Bool.false_ne_true] at hr ⊢
  dsimp only at hr ⊢
  rcases otherSide_cases s.policy s.queue.take.2 f with ho | ⟨events, ho⟩
  · rw [ho] at hr
    cases hr
  · rw [Queue.offer_of_closed hstays] at ho
    rw [ho] at hr ⊢
    cases hr
    exact ⟨rfl, rfl⟩

theorem replaces_waited (h : s.queue.Intact n) {closed : Bool}
    (hr : (s.perform (.waitingTake p none)).1 = .handedOver closed none) :
    s.Replaces (.waitingTake p none) (.closeProducer p) .done := by
  have hheld := held_of_reply hr (by simp)
  rw [perform, withQueue_eq hheld] at hr
  have hp := hasProducer_of_reply hr (by simp)
  rw [withProducer_eq hp] at hr
  have hperform : s.perform (.waitingTake p none) = s.waitingTake none := by
    rw [perform, withQueue_eq hheld, withProducer_eq hp]
  have hclose : s.perform (.closeProducer p) = _ := withProducer_eq hp _
  refine ⟨?_, ?_, ?_⟩
  · rw [next, next, hperform, hclose, waitingTake_none h hr]
  · rw [hclose]
  · rw [hperform, hr]
    rfl

/-- A take that was answered, while the other side enqueued a frame, had all that it needs. -/
theorem waitingTake_of_reply {closed : Bool} {found : Option Frame}
    (hr : (s.perform (.waitingTake p (some source))).1 = .handedOver closed found) :
    s.held = true ∧ s.hasProducer p = true ∧ ∃ f, source.frame? = .ok f ∧
      s.perform (.waitingTake p (some source)) = s.waitingTake (some f) := by
  have hheld := held_of_reply hr (by simp)
  rw [perform, withQueue_eq hheld] at hr
  have hp := hasProducer_of_reply hr (by simp)
  rw [withProducer_eq hp] at hr
  obtain ⟨f, hf⟩ := frame_of_reply hr (by simp)
  refine ⟨hheld, hp, f, hf, ?_⟩
  rw [perform, withQueue_eq hheld, withProducer_eq hp, withFrame_eq hf]

theorem replaces_late (h : s.queue.Intact n) (hn : 2 ≤ n) {closed : Bool} {f : Frame}
    (hf : source.frame? = .ok f)
    (hr : (s.perform (.waitingTake p (some source))).1 = .handedOver closed none) :
    s.Replaces (.waitingTake p (some source)) (.enqueue p source) (.refused .closed f) := by
  obtain ⟨-, hp, g, hg, hperform⟩ := waitingTake_of_reply hr
  cases hf.symm.trans hg
  rw [hperform] at hr
  have hclosed := closed_of_waitingTake h hn hr
  obtain ⟨hnone, hs⟩ := waitingTake_of_closed hclosed hr
  have hsame : s.queue.take.2 = s.queue := h.eq_of_take_none (Prod.ext hnone.symm rfl)
  have henqueue : s.perform (.enqueue p source) = s.enqueue [] f answered := by
    rw [perform, withProducer_eq hp, withFrame_eq hf]
  have hrefused := enqueue_of_closed hclosed f
  refine ⟨?_, henqueue ▸ hrefused, ?_⟩
  · rw [next, next, hperform, hs, hsame, henqueue]
    rcases enqueue_cases s f answered with hblocked | hdone
    · rw [hblocked]
    · rw [hdone] at hrefused ⊢
      exact (refused_of_offer hrefused).1
  · rw [hperform, hr]
    rfl

theorem replaces_refused (hclosed : s.queue.closed = true) {closed : Bool} {found : Option Frame}
    (hr : (s.perform (.waitingTake p (some source))).1 = .handedOver closed found) :
    s.Replaces (.waitingTake p (some source)) .take (.took found) := by
  obtain ⟨hheld, -, f, -, hperform⟩ := waitingTake_of_reply hr
  rw [hperform] at hr
  obtain ⟨rfl, hs⟩ := waitingTake_of_closed hclosed hr
  have htake : s.perform .take = _ := withQueue_eq hheld _
  refine ⟨?_, ?_, ?_⟩
  · rw [next, next, hperform, hs, htake]
  · rw [htake]
  · rw [hperform, hr]
    rfl

/-! ### Calls that a renderer makes -/

variable {renderer : Renderer} {o : Outcome} {calls calls' : List Call}

theorem replaces_step (h : s.queue.Intact n)
    (hr : (s.perform (.step renderer)).1 = .outcome o calls)
    (hspares : List.Forall₂ Call.Spares calls calls') :
    s.Replaces (.step renderer) (.step (.again calls')) (.outcome o calls') := by
  have hheld := held_of_reply hr (by simp)
  have hperform (renderer : Renderer) : s.perform (.step renderer) = _ := withQueue_eq hheld _
  rw [hperform] at hr
  cases hr
  have hrepeats := Consumer.step_repeats (s := s.consumerState) s.watch.threshold renderer h
  obtain ⟨hsame, hreturned⟩ := hrepeats.fresh rfl hspares
  refine ⟨?_, ?_, ?_⟩
  · rw [next, next, hperform, hperform, hsame]
    rfl
  · rw [hperform, hsame]
    rfl
  · rw [hperform]
    exact hreturned

theorem replaces_handle (h : s.queue.Intact n)
    (hr : (s.perform (.handle source renderer)).1 = .outcome o calls)
    (hspares : List.Forall₂ Call.Spares calls calls') :
    s.Replaces (.handle source renderer) (.handle source (.again calls'))
      (.outcome o calls') := by
  have hheld := held_of_reply hr (by simp)
  rw [perform, withQueue_eq hheld] at hr
  obtain ⟨f, hf⟩ := frame_of_reply hr (by simp)
  have hperform (renderer : Renderer) : s.perform (.handle source renderer) =
      s.handled (Consumer.handle s.watch.threshold renderer s.consumerState f) := by
    rw [perform, withQueue_eq hheld, withFrame_eq hf]
  rw [withFrame_eq hf] at hr
  cases hr
  have hrepeats := Consumer.handle_repeats (s := s.consumerState) s.watch.threshold renderer h f
  obtain ⟨hsame, hreturned⟩ := hrepeats.fresh rfl hspares
  refine ⟨?_, ?_, ?_⟩
  · rw [next, next, hperform, hperform, hsame]
    rfl
  · rw [hperform, hsame]
    rfl
  · rw [hperform]
    exact hreturned

theorem replaces_run (h : s.queue.Intact n) {stop : StopSignal} {bound : Nat} {t : Tally}
    (hr : (s.perform (.run renderer stop bound)).1 = .tally t calls)
    (hspares : List.Forall₂ Call.Spares calls calls') :
    s.Replaces (.run renderer stop bound) (.run (.again calls') stop bound) (.tally t calls') := by
  have hheld := held_of_reply hr (by simp)
  have hperform (renderer : Renderer) : s.perform (.run renderer stop bound) =
      s.run renderer stop bound := withQueue_eq hheld _
  rw [hperform, run] at hr
  split at hr
  · rename_i r hrun
    cases hr
    have hrepeats := Consumer.run_repeats (s := s.consumerState) h hrun
    obtain ⟨hsame, hreturned⟩ := hrepeats.fresh rfl hspares
    refine ⟨?_, ?_, ?_⟩
    · rw [next, next, hperform, hperform, run, run, hrun, hsame]
      rfl
    · rw [hperform, run, hsame]
      rfl
    · rw [hperform, run, hrun]
      exact hreturned
  · cases hr

/-! ### All of them -/

/-- If part of an operation comes to nothing, the rest of it alone leaves the same session behind. -/
theorem replaces_of_rest (h : s.queue.Intact n) (hn : 2 ≤ n) {rest : Operation} {left : Reply}
    (hrest : op.Rest s.queue.closed (s.perform op).1 rest left) : s.Replaces op rest left := by
  generalize hr : (s.perform op).1 = reply at hrest
  cases hrest with
  | fill => exact replaces_fill hr
  | drain => exact replaces_drain h hr
  | take => exact replaces_blockedEnqueue hr
  | close hne =>
    have hreplaces := replaces_blockedEnqueue hr
    rwa [if_neg hne] at hreplaces
  | waited => exact replaces_waited h hr
  | late hf => exact replaces_late h hn hf hr
  | refused hclosed => exact replaces_refused hclosed hr
  | step hspares => exact replaces_step h hr hspares
  | handle hspares => exact replaces_handle h hr hspares
  | run hspares => exact replaces_run h hr hspares

end Session

end SheddingQueue
