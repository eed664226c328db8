import SheddingQueue.Proofs.Consumer.Dwindling

/-!
# The warning that nothing will be shed

As long as nobody comes between a take and the count of the frames behind it, at most two frames
fewer than there are slots are ever counted. Whoever makes a queue is warned exactly if the threshold
lies above that: `warns_iff_never_shed` says that this is the case exactly if no step of any session
sheds a frame, be it one of a run, and whatever the renderer does to the queue.
-/

namespace SheddingQueue

/-- What a deal says of the frame that the consumer had. -/
def Deal.outcome? : Deal → Option Outcome
  | .looked _ outcome | .given outcome => some outcome
  | .enqueued .. | .exchanged _ => none

namespace Consumer

variable {threshold n : Nat} {renderer : Renderer} {s : State} {xs : List Frame}

/-! ## Steps -/

/-- A step sheds a frame exactly if the queue stores more frames than the threshold: one of them is
taken out before the others are counted. -/
theorem step_isShed_iff (renderer : Renderer) (hq : s.queue.Stores n xs) :
    (step threshold renderer s).outcome.isShed = true ↔ threshold < xs.length := by
  have hstep := step_idle_or_handled threshold renderer hq
  cases xs with
  | nil =>
    rw [hstep]
    exact ⟨nofun, fun h => absurd h (Nat.not_lt_zero threshold)⟩
  | cons f rest =>
    obtain ⟨q, fate, -, -, -, h⟩ := hstep
    have hfate : (Outcome.handled fate f.seq rest.length).isShed = true ↔ fate = .shed := by
      cases fate <;> simp [Outcome.isShed]
    rw [h.outcome, hfate, h.shed, List.length_cons, Nat.lt_succ_iff]

/-- As the gap is never filled, a threshold just below the number of slots is out of reach. -/
theorem step_not_shed (renderer : Renderer) (hq : s.queue.Stores n xs) (hn : n ≤ threshold + 1) :
    (step threshold renderer s).outcome.isShed = false := by
  have hroom := hq.length_lt
  rw [Bool.eq_false_iff, Ne, step_isShed_iff renderer hq]
  omega

/-- A step has one outcome. What the renderer does to the queue has none. -/
theorem outcomes_deals (threshold : Nat) (renderer : Renderer) (s : State) :
    (deals threshold renderer s).filterMap Deal.outcome? =
      [(step threshold renderer s).outcome] := by
  have hcalls : ((((step threshold renderer s).state.calls.drop s.calls.length).flatMap
      Call.deals).filterMap Deal.outcome?) = [] := by
    rw [List.filterMap_eq_nil_iff]
    intro d hd
    obtain ⟨call, -, hd⟩ := List.mem_flatMap.mp hd
    obtain ⟨e, -, rfl⟩ := List.mem_map.mp hd
    rfl
  exact congrArg (_ :: ·) hcalls

theorem dealsWithin_not_shed {halt : Queue Frame → Bool} (bound : Nat)
    (hq : s.queue.Stores n xs) (hn : n ≤ threshold + 1) :
    ∀ o ∈ (dealsWithin threshold renderer halt bound s).filterMap Deal.outcome?,
      o.isShed = false := by
  induction bound generalizing s xs with
  | zero => exact List.forall_mem_nil _
  | succ bound ih =>
    obtain ⟨ys, hys, -⟩ := Deal.contents_of_run (step_deals threshold renderer s).run hq
    intro o ho
    rw [dealsWithin] at ho
    split at ho
    · cases ho
    · rw [List.filterMap_append, outcomes_deals] at ho
      rcases List.mem_append.mp ho with ho | ho
      · rw [List.mem_singleton.mp ho]
        exact step_not_shed renderer hq hn
      · exact ih hys o ho

end Consumer

namespace Session

variable {n : Nat} {s : Session} {xs : List Frame}

/-- The outcomes that the consumer has during an operation. Those of a run are there as far as its
bound goes, whether or not the run has come to its end by then. -/
def outcomes (s : Session) (op : Operation) : List Outcome :=
  match op with
  | .run renderer stop bound =>
    if s.held then
      (Consumer.dealsWithin s.watch.threshold renderer (StopSignal.halt stop)
        (s.queue.count + bound) s.consumerState).filterMap Deal.outcome?
    else []
  | op => (s.deals op).filterMap Deal.outcome?

theorem outcomes_step (hheld : s.held = true) (renderer : Renderer) :
    s.outcomes (.step renderer) =
      [(Consumer.step s.watch.threshold renderer s.consumerState).outcome] := by
  rw [← Consumer.outcomes_deals]
  show (s.dealsFor (.step renderer) (s.perform (.step renderer)).1).filterMap _ = _
  rw [perform, withQueue, if_pos hheld]
  rfl

/-! ## Out of reach -/

theorem watch_enqueue (s : Session) (others : List Producer.Others) (f : Frame)
    (reply : Admission Frame → Reply) : (s.enqueue others f reply).2.1.watch = s.watch := by
  rw [enqueue]
  split <;> rfl

theorem watch_releaseAfter (release : Release) (performed : Performed) :
    (releaseAfter release performed).2.1.watch = performed.2.1.watch := by
  unfold releaseAfter
  split <;> rfl

theorem watch_blockedEnqueue (s : Session) (seen : Bool) (release : Release) (f : Frame) :
    (s.blockedEnqueue seen release f).2.1.watch = s.watch := by
  rw [blockedEnqueue]
  dsimp only
  split
  · exact watch_enqueue ..
  · exact (watch_releaseAfter ..).trans (watch_enqueue ..)

theorem watch_waitingTake (s : Session) (source : Option Frame) :
    (s.waitingTake source).2.1.watch = s.watch := by
  rw [waitingTake]
  repeat' split
  all_goals rfl

/-- No operation changes the threshold. -/
theorem watch_next (s : Session) (op : Operation) : (s.next op).watch = s.watch := by
  cases op with
  | enqueue p source =>
    rw [next, perform, withProducer, withFrame]
    repeat' split
    · exact watch_enqueue ..
    all_goals rfl
  | blockedEnqueue p source seen release =>
    rw [next, perform, withProducer, withQueue, withFrame]
    repeat' split
    · exact watch_blockedEnqueue ..
    all_goals rfl
  | waitingTake p source =>
    cases source with
    | none =>
      rw [next, perform, withQueue, withProducer]
      repeat' split
      · exact watch_waitingTake ..
      all_goals rfl
    | some source =>
      rw [next, perform, withQueue, withProducer, withFrame]
      repeat' split
      · exact watch_waitingTake ..
      all_goals rfl
  | run renderer stop bound =>
    rw [next, perform, withQueue, run]
    repeat' split
    all_goals rfl
  | handle source renderer =>
    rw [next, perform, withQueue, withFrame]
    repeat' split
    all_goals rfl
  | offer p source =>
    rw [next, perform, withProducer, withFrame]
    repeat' split
    all_goals rfl
  | inspect p => rfl
  | closeProducer p | dropProducer p | cloneProducer p | fill p first count =>
    rw [next, perform, withProducer]
    split <;> rfl
  | take | takeWithin | drain most | closeQueue | dropQueue | newProducer | step renderer =>
    rw [next, perform, withQueue]
    split <;> rfl

/-- No operation on a queue with a threshold out of reach sheds a frame, unless the consumer is given
one that has not been in the queue. -/
theorem outcomes_not_shed {op : Operation} (hop : op.isHandle = false)
    (hq : s.queue.Stores n xs) (hn : n ≤ s.watch.threshold + 1) :
    ∀ o ∈ s.outcomes op, o.isShed = false := by
  have hother {d : Deal} (hd : d.outcome? = none) :
      ∀ o ∈ [d].filterMap Deal.outcome?, o.isShed = false := by
    simp [hd]
  intro o ho
  unfold outcomes at ho
  split at ho
  · split at ho
    · exact Consumer.dealsWithin_not_shed _ hq hn o ho
    · cases ho
  · rw [deals, dealsFor.eq_def] at ho
    split at ho
    · simp [List.mem_filterMap, Deal.outcome?] at ho
    · simp [List.mem_filterMap, Deal.outcome?] at ho
    · exact hother rfl o ho
    · exact hother rfl o ho
    · exact hother rfl o ho
    · exact hother rfl o ho
    · exact hother rfl o ho
    · rw [Consumer.outcomes_deals] at ho
      rw [List.mem_singleton.mp ho]
      exact Consumer.step_not_shed _ hq hn
    · cases hop
    · exact Consumer.dealsWithin_not_shed _ hq hn o ho
    · cases ho

theorem along_not_shed {ops : List Operation} (hops : ∀ op ∈ ops, op.isHandle = false)
    (hq : s.queue.Intact n) (hn : n ≤ s.watch.threshold + 1) :
    ∀ o ∈ s.along outcomes ops, o.isShed = false := by
  induction ops generalizing s with
  | nil => exact List.forall_mem_nil _
  | cons op ops ih =>
    intro o ho
    rcases List.mem_append.mp ho with ho | ho
    · obtain ⟨xs, hxs⟩ := hq
      exact outcomes_not_shed (hops op List.mem_cons_self) hxs hn o ho
    · refine ih (fun op hmem => hops op (List.mem_cons_of_mem _ hmem)) (intact_next hq op) ?_ o ho
      rwa [watch_next]

/-! ## Within reach -/

/-- Offers fill an open queue as far as there is room. -/
theorem after_offers (hq : s.queue.Stores n xs) (hopen : s.queue.closed = false)
    (hp : s.hasProducer 0 = true) (f : Frame) (k : Nat) (hroom : xs.length + k < n) :
    ∃ q, s.after (List.replicate k (.offer 0 (.frame f))) = { s with queue := q } ∧
      q.Stores n (xs ++ List.replicate k f) := by
  induction k generalizing s xs with
  | zero => exact ⟨s.queue, rfl, by simpa using hq⟩
  | succ k ih =>
    rcases hq.offer_cases f with ⟨hc, -⟩ | ⟨-, hfull, -⟩ | ⟨-, -, q, ho, hopen', hs⟩
    · exact absurd (hopen.symm.trans hc) (by decide)
    · omega
    · have hnext : s.next (.offer 0 (.frame f)) = { s with queue := q } := by
        rw [next, perform, withProducer, if_pos hp, withFrame]
        simp only [Source.frame?, ho]
      have hmore : (xs ++ [f]).length + k < n := by
        rw [List.length_append, List.length_singleton]
        omega
      obtain ⟨r, hafter, hr⟩ := ih (s := { s with queue := q }) hs hopen' hp hmore
      refine ⟨r, ?_, ?_⟩
      · rw [List.replicate_succ, after, List.foldl_cons, hnext]
        exact hafter
      · rwa [List.append_assoc, List.singleton_append, ← List.replicate_succ] at hr

theorem outcomes_along_append (s : Session) (ops later : List Operation) :
    s.along outcomes (ops ++ later) = s.along outcomes ops ++ (s.after ops).along outcomes later := by
  induction ops generalizing s with
  | nil => rfl
  | cons op ops ih =>
    rw [List.cons_append, along, along, ih, List.append_assoc]
    rfl

/-- A session that fills the queue and then lets the consumer take a step sheds a frame, if the
threshold is not more than the number of frames that the step leaves. -/
theorem exists_shed (hq : s.queue.Stores n []) (hopen : s.queue.closed = false)
    (hp : s.hasProducer 0 = true) (hheld : s.held = true) (hn : s.watch.threshold + 1 < n) :
    ∃ ops, (∀ op ∈ ops, op.isHandle = false) ∧ ∃ o ∈ s.along outcomes ops, o.isShed = true := by
  let fill : List Operation := List.replicate (n - 1) (.offer 0 (.frame .blank))
  obtain ⟨q, hafter, hs⟩ := after_offers hq hopen hp .blank (n - 1) (by simp; omega)
  let full : Session := { s with queue := q }
  have hmany : s.watch.threshold < ([] ++ List.replicate (n - 1) Frame.blank).length := by
    simp only [List.nil_append, List.length_replicate]
    omega
  have hshed := (Consumer.step_isShed_iff (s := full.consumerState) .accepting hs).mpr hmany
  refine ⟨fill ++ [.step .accepting], ?_, _, ?_, hshed⟩
  · intro op hop
    rcases List.mem_append.mp hop with hop | hop
    · rw [List.eq_of_mem_replicate hop]
      rfl
    · rw [List.mem_singleton.mp hop]
      rfl
  · rw [outcomes_along_append, hafter, along, outcomes_step (s := full) hheld]
    exact List.mem_append_right _ List.mem_cons_self

/-- The warning is given exactly if no step sheds a frame, in no session. -/
theorem warns_iff_never_shed {st : Settings} {b : Built Frame} (hb : st.build Frame = .ok b) :
    b.warns ↔ ∀ ops, (∀ op ∈ ops, op.isHandle = false) →
      ∀ o ∈ (ofBuilt b).along outcomes ops, o.isShed = false := by
  obtain ⟨hq, hopen⟩ := Settings.stores_of_build hb
  rw [Settings.warns_iff hb]
  constructor
  · intro hn ops hops
    exact along_not_shed hops ⟨[], hq⟩ hn
  · intro hnever
    by_contra hn
    obtain ⟨ops, hops, o, ho, hshed⟩ :=
      exists_shed (s := ofBuilt b) hq hopen rfl rfl (Nat.lt_of_not_le hn)
    rw [hnever ops hops o ho] at hshed
    cases hshed

/-- Of four slots three can be used, and two frames are left when one has been taken out. A threshold
of three frames is out of reach, and the warning says so; the usual threshold of half the slots is
not, and some session sheds a frame. -/
theorem warned_of_three : ∃ b b',
    ({ capacity := 4, threshold := .fixed 3 } : Settings).build Frame = .ok b ∧ b.warns ∧
    (∀ ops, (∀ op ∈ ops, op.isHandle = false) →
      ∀ o ∈ (ofBuilt b).along outcomes ops, o.isShed = false) ∧
    ({ capacity := 4 } : Settings).build Frame = .ok b' ∧ ¬b'.warns ∧
    ¬∀ ops, (∀ op ∈ ops, op.isHandle = false) →
      ∀ o ∈ (ofBuilt b').along outcomes ops, o.isShed = false := by
  have hb : ({ capacity := 4, threshold := .fixed 3 } : Settings).build Frame =
    .ok ⟨_, _, _, _, _⟩ := rfl
  have hb' : ({ capacity := 4 } : Settings).build Frame = .ok ⟨_, _, _, _, _⟩ := rfl
  have hwarns := (Settings.warns_iff hb).mpr (by decide)
  have hquiet := mt (Settings.warns_iff hb').mp (by decide)
  exact ⟨_, _, hb, hwarns, (warns_iff_never_shed hb).mp hwarns, hb', hquiet,
    fun h => hquiet ((warns_iff_never_shed hb').mpr h)⟩

end Session

end SheddingQueue
