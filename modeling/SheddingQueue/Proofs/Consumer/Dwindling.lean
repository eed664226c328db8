import SheddingQueue.Proofs.Closing
import SheddingQueue.Proofs.Consumer.Handling
import SheddingQueue.Proofs.Consumer.Iteration

/-!
# The backlog of a closed queue

Nothing comes into a closed queue any more, so each step leaves fewer frames in it than it found,
whatever the renderer does: it can take frames out, but what it offers is refused. `Dwindling` is
what this means for the outcomes, one after another, and `run_dwindles` what it means for a run:
it ends, and frames are given up at its beginning only.
-/

namespace SheddingQueue

/-- How many frames an outcome tells of, behind the one that was handled. -/
def Outcome.waiting? : Outcome → Option Nat
  | .idle => none
  | .handled _ _ waiting => some waiting

/-- Whether a frame was given up. -/
def Outcome.isShed : Outcome → Bool
  | .handled .shed _ _ => true
  | _ => false

namespace Consumer

/-! ## Outcomes -/

/-- Outcomes that tell of fewer and fewer frames, of less than `k` to begin with. A frame was given
up exactly if there were as many as the threshold. -/
inductive Dwindling (threshold : Nat) : Nat → List Outcome → Prop where
  | done {k : Nat} : Dwindling threshold k []
  | next {k waiting : Nat} {fate : Fate} {seq : Option UInt64} {os : List Outcome} :
      waiting < k → (fate = .shed ↔ threshold ≤ waiting) → Dwindling threshold waiting os →
      Dwindling threshold k (.handled fate seq waiting :: os)

namespace Dwindling

variable {threshold k : Nat} {os : List Outcome}

theorem mono {m : Nat} (h : Dwindling threshold k os) (hkm : k ≤ m) : Dwindling threshold m os := by
  cases h with
  | done => exact .done
  | next hlt hshed hrest => exact .next (Nat.lt_of_lt_of_le hlt hkm) hshed hrest

theorem length_le (h : Dwindling threshold k os) : os.length ≤ k := by
  induction h with
  | done => exact Nat.zero_le _
  | next hlt _ _ ih => exact Nat.lt_of_le_of_lt ih hlt

theorem mem (h : Dwindling threshold k os) {o : Outcome} (ho : o ∈ os) :
    ∃ fate seq waiting, o = .handled fate seq waiting ∧ waiting < k ∧
      (fate = .shed ↔ threshold ≤ waiting) := by
  induction h with
  | done => cases ho
  | next hlt hshed _ ih =>
    rcases List.mem_cons.mp ho with rfl | ho
    · exact ⟨_, _, _, rfl, hlt, hshed⟩
    · obtain ⟨fate, seq, waiting, heq, hless, hshed⟩ := ih ho
      exact ⟨fate, seq, waiting, heq, Nat.lt_trans hless hlt, hshed⟩

theorem busy (h : Dwindling threshold k os) : ∀ o ∈ os, o ≠ .idle := by
  intro o ho
  obtain ⟨fate, seq, waiting, rfl, -, -⟩ := h.mem ho
  exact Outcome.noConfusion

theorem waiting_lt (h : Dwindling threshold k os) : ∀ w ∈ os.filterMap Outcome.waiting?, w < k := by
  intro w hw
  obtain ⟨o, ho, hwait⟩ := List.mem_filterMap.mp hw
  obtain ⟨fate, seq, waiting, rfl, hlt, -⟩ := h.mem ho
  cases hwait
  exact hlt

theorem decreasing (h : Dwindling threshold k os) :
    (os.filterMap Outcome.waiting?).Pairwise (· > ·) := by
  induction h with
  | done => exact .nil
  | next _ _ hrest ih => exact List.pairwise_cons.mpr ⟨hrest.waiting_lt, ih⟩

/-- A frame that is given up has nothing but such frames before it. -/
theorem front (h : Dwindling threshold k os) :
    os.Pairwise fun earlier later => later.isShed = true → earlier.isShed = true := by
  induction h with
  | done => exact .nil
  | @next _ waiting fate _ _ _ hshed hrest ih =>
    refine List.pairwise_cons.mpr ⟨?_, ih⟩
    intro later hlater hgiven
    obtain ⟨fate', seq', waiting', rfl, hlt, hshed'⟩ := hrest.mem hlater
    have hlater' : fate' = .shed := by cases fate' <;> first | rfl | cases hgiven
    have hreached : threshold ≤ waiting := Nat.le_trans (hshed'.mp hlater') (Nat.le_of_lt hlt)
    rw [hshed.mpr hreached]
    rfl

end Dwindling

/-! ## Steps -/

variable {threshold n : Nat} {renderer : Renderer} {s : State} {f : Frame}
  {rest xs : List Frame}

/-- A step takes out the oldest frame of a closed queue, the renderer perhaps some of the next
ones, and nothing comes in. -/
theorem step_of_closed (threshold : Nat) (renderer : Renderer)
    (hq : s.queue.Stores n (f :: rest)) (hc : s.queue.closed = true) :
    let r := step threshold renderer s
    (∃ fate, r.outcome = .handled fate f.seq rest.length ∧
      (fate = .shed ↔ threshold ≤ rest.length)) ∧
    r.state.queue.closed = true ∧ ∃ m, r.state.queue.Stores n (rest.drop m) := by
  rcases hq.take_cases with ⟨hnil, -⟩ | ⟨f, rest, q, hcons, ht, hclosed, hrest⟩
  · cases hnil
  · cases hcons
    obtain ⟨fate, h⟩ := handle_handled (s := s) threshold renderer hrest f
    rw [step_of_some ht]
    have hfinal := Deal.final_of_run h.contents.1 (.start hrest (hclosed.trans hc))
    exact ⟨⟨fate, h.outcome, h.shed⟩, hfinal.closed, _, hfinal.stores⟩

/-- It is time to stop if a closed queue is empty; as long as it is not, only the renderer can ask
for it. -/
theorem stops_of_closed (hq : s.queue.Stores n xs) (hc : s.queue.closed = true) :
    stops undisturbed s = (s.cancelled || xs.isEmpty) := by
  simp [stops, undisturbed, hc, hq.isEmpty_eq]

/-- So sooner or later it is time to stop, and the outcomes until then tell of fewer and fewer
frames. -/
theorem exists_dwindling (threshold : Nat) (renderer : Renderer) (hq : s.queue.Stores n xs)
    (hc : s.queue.closed = true) :
    ∃ k, StopsAfter threshold renderer undisturbed k s ∧
      Dwindling threshold xs.length ((results threshold renderer k s).map Result.outcome) := by
  -- the renderer may take out any number of frames, so the induction is on how many are left
  induction hlength : xs.length using Nat.strongRecOn generalizing s xs with
  | ind k ih =>
    by_cases hstops : stops undisturbed s = true
    · exact ⟨0, stopsAfter_zero.mpr hstops, .done⟩
    · cases xs with
      | nil =>
        rw [stops_of_closed hq hc] at hstops
        exact absurd (Bool.or_true s.cancelled) hstops
      | cons f rest =>
        obtain ⟨⟨fate, houtcome, hshed⟩, hc', m, hq'⟩ := step_of_closed threshold renderer hq hc
        have hfewer : rest.length < k := by
          rw [← hlength, List.length_cons]
          exact Nat.lt_succ_self _
        have hdrop : (rest.drop m).length ≤ rest.length := by
          rw [List.length_drop]
          exact Nat.sub_le _ _
        obtain ⟨j, hj, hlater⟩ := ih _ (Nat.lt_of_le_of_lt hdrop hfewer) hq' hc' rfl
        refine ⟨j + 1, stopsAfter_succ.mpr ⟨by simpa using hstops, hj⟩, ?_⟩
        rw [results_succ, List.map_cons, houtcome]
        exact .next hfewer hshed (hlater.mono hdrop)

/-! ## Runs -/

/-- A run that does `k` steps, no more and no less, and returns `r`. -/
structure Performs (capacity threshold : Nat) (renderer : Renderer) (s : State) (k : Nat) (r : Run) :
    Prop where
  iterated : Iterated capacity threshold renderer s k r
  /-- It returns as soon as it may do that many steps. -/
  returns : ∀ bound, run capacity threshold renderer undisturbed bound s =
    if k ≤ bound then some r else none

theorem performs_of_stopsAfter (capacity : Nat) {k : Nat}
    (h : StopsAfter threshold renderer undisturbed k s) :
    ∃ r, Performs capacity threshold renderer s k r := by
  obtain ⟨r, hr⟩ := exists_iterated capacity threshold renderer s k
  obtain ⟨hstops, hbefore⟩ := h
  have hover (j : Nat) (hj : j < k) : ¬ Over (stepped threshold renderer j s) := by
    rw [← stops_undisturbed, hbefore j hj]
    exact Bool.false_ne_true
  refine ⟨r, hr, fun bound => ?_⟩
  split
  · exact run_eq_some_iff.mpr ⟨k, ‹k ≤ bound›, stops_undisturbed.mp hstops, hover, hr⟩
  · refine Option.eq_none_iff_forall_ne_some.mpr fun r' hr' => ?_
    obtain ⟨j, hj, hstop, -⟩ := run_eq_some_iff.mp hr'
    exact hover j (by omega) hstop

/-- A run on a closed queue does at most as many steps as there are frames in it, and handles one
in each of them. It counts fewer and fewer frames behind those that it handles, so that the
frames that it gives up are the first ones. It ends with an empty queue unless the renderer has asked
for a stop. -/
theorem run_dwindles (capacity threshold : Nat) (renderer : Renderer) (hq : s.queue.Stores n xs)
    (hc : s.queue.closed = true) :
    ∃ k r, k ≤ xs.length ∧ Performs capacity threshold renderer s k r ∧
      let outcomes := (results threshold renderer k s).map Result.outcome
      (∀ o ∈ outcomes, o ≠ .idle) ∧
        (outcomes.filterMap Outcome.waiting?).Pairwise (· > ·) ∧
        outcomes.Pairwise (fun earlier later => later.isShed = true → earlier.isShed = true) ∧
        (r.state.queue.toList = [] ∨ r.state.cancelled = true) := by
  obtain ⟨k, hstops, h⟩ := exists_dwindling threshold renderer hq hc
  obtain ⟨r, hr⟩ := performs_of_stopsAfter capacity hstops
  have hk : k ≤ xs.length := by simpa [results] using h.length_le
  refine ⟨k, r, hk, hr, h.busy, h.decreasing, h.front, ?_⟩
  rw [hr.iterated.state]
  rcases stops_undisturbed.mp hstops.1 with hcancelled | ⟨-, hempty⟩
  · exact .inr hcancelled
  · obtain ⟨ys, hys⟩ := stepped_stores threshold renderer hq k
    rw [hys.isEmpty_eq, List.isEmpty_iff] at hempty
    exact .inl (hys.toList_eq.trans hempty)

/-- There are five frames in a closed queue. The first three are given up; while the renderer has
the fourth one, it takes out the last one and offers another one in vain. -/
theorem run_dwindles_despite_meddling : ∃ b,
    ({ capacity := 6, threshold := .fixed 2 } : Settings).build Frame = .ok b ∧
    let specimen := Session.specimen
    let meddling : Renderer := fun _ _ _ =>
      .take fun _ => .offer (specimen 6) fun _ => .close (.finish (.ok ()))
    let s : State := { queue := ((Session.ofBuilt b).after [.fill 0 1 5, .closeQueue]).queue }
    s.queue.Stores 6 ([1, 2, 3, 4, 5].map specimen) ∧ s.queue.closed = true ∧
      ∃ k r, k ≤ 5 ∧ Performs 6 2 meddling s k r ∧ r.state.queue.toList = [] ∧
        r.tally = { shed := 3, rendered := 1 } := by
  have hb : ({ capacity := 6, threshold := .fixed 2 } : Settings).build Frame =
    .ok ⟨_, _, _, _, _⟩ := rfl
  refine ⟨_, hb, ?_⟩
  intro specimen meddling s
  have hq : s.queue.Stores 6 ([1, 2, 3, 4, 5].map specimen) :=
    Session.stores_after_build hb [.fill 0 1 5, .closeQueue]
  have hc : s.queue.closed = true := by decide +kernel
  obtain ⟨k, r, hk, hr, -, -, -, hend⟩ := run_dwindles 6 2 meddling hq hc
  have hrun : run 6 2 meddling undisturbed 5 s = some r := (hr.returns 5).trans (if_pos hk)
  have htally : (run 6 2 meddling undisturbed 5 s).map Run.tally =
      some { shed := 3, rendered := 1 } := by decide +kernel
  have hcancelled : (run 6 2 meddling undisturbed 5 s).map (·.state.cancelled) = some false := by
    decide +kernel
  rw [hrun] at htally hcancelled
  refine ⟨hq, hc, k, r, hk, hr, ?_, Option.some_inj.mp htally⟩
  exact hend.resolve_right (by simpa using hcancelled)

end Consumer

end SheddingQueue
