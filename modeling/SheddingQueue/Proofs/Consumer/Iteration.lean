import Mathlib.Logic.Function.Iterate
import SheddingQueue.Proofs.Session.Deals

/-!
# A run as an iteration of steps

A run does nothing but steps, one after another, and stops as soon as it is time to: `stepped` is
the state after some steps, `results` is what these come to, and `run_iterates` says that a run
returns exactly if there is a first state in which it is over, and what it returns then.
-/

namespace SheddingQueue

namespace Consumer

section

variable (threshold : Nat) (renderer : Renderer)

/-- The state after `k` steps. -/
def stepped (k : Nat) (s : State) : State :=
  (fun s => (step threshold renderer s).state)^[k] s

/-- What `k` steps come to, one after another. -/
def results (k : Nat) (s : State) : List Result :=
  (List.range k).map fun i => step threshold renderer (stepped threshold renderer i s)

/-- What `k` steps leave behind: a tally of their outcomes that begins with `tally`, the state after
them, and all that they have reported. -/
def gather (k : Nat) (s : State) (tally : Tally) : Run :=
  { tally := (results threshold renderer k s).foldl (fun t r => t.record r.outcome) tally
    state := stepped threshold renderer k s
    events := (results threshold renderer k s).flatMap Result.events }

/-- The first time to stop comes after `k` steps. -/
def StopsAfter (halt : Queue Frame → Bool) (k : Nat) (s : State) : Prop :=
  stops halt (stepped threshold renderer k s) = true ∧
    ∀ j, j < k → stops halt (stepped threshold renderer j s) = false

end

variable {threshold : Nat} {renderer : Renderer} {halt : Queue Frame → Bool} {s : State}

/-! ## Steps -/

theorem stepped_succ (k : Nat) (s : State) : stepped threshold renderer (k + 1) s =
    stepped threshold renderer k (step threshold renderer s).state :=
  Function.iterate_succ_apply _ k s

theorem stepped_succ' (k : Nat) (s : State) : stepped threshold renderer (k + 1) s =
    (step threshold renderer (stepped threshold renderer k s)).state :=
  Function.iterate_succ_apply' _ k s

theorem results_succ (k : Nat) (s : State) : results threshold renderer (k + 1) s =
    step threshold renderer s ::
      results threshold renderer k (step threshold renderer s).state := by
  simp only [results, List.range_succ_eq_map, List.map_cons, List.map_map]
  refine congrArg _ (List.map_congr_left ?_)
  intro i _
  rw [Function.comp_apply, stepped_succ]

theorem gather_succ (k : Nat) (s : State) (tally : Tally) :
    gather threshold renderer (k + 1) s tally =
      let r := step threshold renderer s
      let run := gather threshold renderer k r.state (tally.record r.outcome)
      { run with events := r.events ++ run.events } := by
  simp only [gather, results_succ, stepped_succ, List.foldl_cons, List.flatMap_cons]

theorem stopsAfter_zero : StopsAfter threshold renderer halt 0 s ↔ stops halt s = true := by
  constructor
  · intro h
    exact h.1
  · intro h
    exact ⟨h, fun j hj => absurd hj (Nat.not_lt_zero j)⟩

theorem stopsAfter_succ {k : Nat} : StopsAfter threshold renderer halt (k + 1) s ↔
    stops halt s = false ∧
      StopsAfter threshold renderer halt k (step threshold renderer s).state := by
  constructor
  · rintro ⟨hstops, hbefore⟩
    refine ⟨hbefore 0 (Nat.zero_lt_succ k), stepped_succ k s ▸ hstops, ?_⟩
    intro j hj
    rw [← stepped_succ]
    exact hbefore (j + 1) (Nat.succ_lt_succ hj)
  · rintro ⟨hfirst, hstops, hbefore⟩
    refine ⟨stepped_succ k s ▸ hstops, ?_⟩
    intro j hj
    cases j with
    | zero => exact hfirst
    | succ j =>
      rw [stepped_succ]
      exact hbefore j (Nat.lt_of_succ_lt_succ hj)

/-! ## Runs -/

/-- The loop returns if its bound admits the steps up to the first time to stop. -/
theorem loop_eq_some_iff {bound : Nat} {tally : Tally} {r : Run} :
    loop threshold renderer halt bound s tally = some r ↔
      ∃ k, k ≤ bound ∧ StopsAfter threshold renderer halt k s ∧
        r = gather threshold renderer k s tally := by
  induction bound generalizing s tally r with
  | zero =>
    rw [loop]
    constructor
    · intro h
      split at h
      · rename_i hstops
        cases h
        exact ⟨0, Nat.le_refl 0, stopsAfter_zero.mpr hstops, rfl⟩
      · cases h
    · rintro ⟨k, hk, hstops, rfl⟩
      obtain rfl := Nat.le_zero.mp hk
      rw [if_pos (stopsAfter_zero.mp hstops)]
      rfl
  | succ bound ih =>
    rw [loop]
    by_cases hstops : stops halt s = true
    · rw [if_pos hstops]
      constructor
      · rintro ⟨⟩
        exact ⟨0, Nat.zero_le _, stopsAfter_zero.mpr hstops, rfl⟩
      · rintro ⟨k, -, hk, rfl⟩
        cases k with
        | zero => rfl
        | succ k => simp [(stopsAfter_succ.mp hk).1] at hstops
    · rw [if_neg hstops, Option.map_eq_some_iff]
      constructor
      · rintro ⟨rest, hrest, rfl⟩
        obtain ⟨k, hk, hafter, rfl⟩ := ih.mp hrest
        refine ⟨k + 1, Nat.succ_le_succ hk, ?_, (gather_succ k s tally).symm⟩
        exact stopsAfter_succ.mpr ⟨by simpa using hstops, hafter⟩
      · rintro ⟨k, hk, hafter, rfl⟩
        cases k with
        | zero => exact absurd (stopsAfter_zero.mp hafter) hstops
        | succ k =>
          have hrest := (stopsAfter_succ.mp hafter).2
          exact ⟨_, ih.mpr ⟨k, Nat.le_of_succ_le_succ hk, hrest, rfl⟩, (gather_succ k s tally).symm⟩

/-- Nobody outside asks for a stop. -/
def undisturbed : Queue Frame → Bool := fun _ => false

/-- It is time to stop, be it that the renderer has asked for it or that nothing can come any
more. -/
def Over (s : State) : Prop :=
  s.cancelled = true ∨ (s.queue.closed = true ∧ s.queue.isEmpty = true)

theorem stops_undisturbed : stops undisturbed s = true ↔ Over s := by
  simp [stops, undisturbed, Over]

/-- What a run has come to that has done `k` steps, beginning with the state `s`. -/
structure Iterated (capacity threshold : Nat) (renderer : Renderer) (s : State) (k : Nat)
    (r : Run) : Prop where
  tally : r.tally =
    ((results threshold renderer k s).map Result.outcome).foldl Tally.record {}
  /-- The queue, the calls of the renderer, and whether it has asked for a stop. -/
  state : r.state = stepped threshold renderer k s
  events : r.events = .noted (.started capacity threshold) ::
    (results threshold renderer k s).flatMap Result.events ++ [.noted (.stopped r.tally)]

theorem exists_iterated (capacity threshold : Nat) (renderer : Renderer) (s : State) (k : Nat) :
    ∃ r, Iterated capacity threshold renderer s k r := by
  let rs := results threshold renderer k s
  let tally := (rs.map Result.outcome).foldl Tally.record {}
  let events := .noted (.started capacity threshold) :: rs.flatMap Result.events
    ++ [.noted (.stopped tally)]
  exact ⟨⟨tally, stepped threshold renderer k s, events⟩, rfl, rfl, rfl⟩

theorem run_eq_some_iff {capacity bound : Nat} {r : Run} :
    run capacity threshold renderer undisturbed bound s = some r ↔
      ∃ k, k ≤ bound ∧ Over (stepped threshold renderer k s) ∧
        (∀ j, j < k → ¬ Over (stepped threshold renderer j s)) ∧
        Iterated capacity threshold renderer s k r := by
  have hover (k : Nat) : StopsAfter threshold renderer undisturbed k s ↔
      Over (stepped threshold renderer k s) ∧
        ∀ j, j < k → ¬ Over (stepped threshold renderer j s) := by
    simp only [StopsAfter, ← Bool.not_eq_true, stops_undisturbed]
  rw [run, Option.map_eq_some_iff]
  constructor
  · rintro ⟨r, hr, rfl⟩
    obtain ⟨k, hk, hafter, rfl⟩ := loop_eq_some_iff.mp hr
    obtain ⟨hstop, hbefore⟩ := (hover k).mp hafter
    exact ⟨k, hk, hstop, hbefore, by simp [gather, List.foldl_map], rfl, rfl⟩
  · rintro ⟨k, hk, hstop, hbefore, h⟩
    refine ⟨_, loop_eq_some_iff.mpr ⟨k, hk, (hover k).mpr ⟨hstop, hbefore⟩, rfl⟩, ?_⟩
    obtain ⟨tally, state, events⟩ := r
    obtain ⟨htally, hstate, hevents⟩ := h
    rw [List.foldl_map] at htally
    dsimp only at htally hstate hevents
    subst htally hstate hevents
    rfl

/-! ## Who asks for the stop -/

/-- Whether an exchange asks for a stop. -/
def asksToStop : Exchange → Bool
  | .cancelled => true
  | .offered .. | .took _ | .closed => false

/-- Whether the renderer asks for a stop in the step that leads from a state to the next one. -/
def cancels (threshold : Nat) (renderer : Renderer) (s : State) : Bool :=
  ((step threshold renderer s).state.calls.drop s.calls.length).any fun call =>
    call.exchanges.any asksToStop

theorem cancelled_perform (i : Interaction) (q : Queue Frame) (cancelled : Bool) :
    (i.perform q cancelled).cancelled =
      (cancelled || (i.perform q cancelled).exchanges.any asksToStop) := by
  induction i generalizing q cancelled with
  | finish verdict => exact (Bool.or_false cancelled).symm
  | offer f next ih => exact ih (q.offer f).1 (q.offer f).2 cancelled
  | take next ih => exact ih q.take.1 q.take.2 cancelled
  | close next ih => exact ih q.close cancelled
  | cancel next ih =>
    have h := ih q true
    rw [Bool.true_or] at h
    exact h.trans (Bool.or_true cancelled).symm

/-- A step in which the renderer asks for a stop is the last one. -/
theorem over_of_cancels (h : cancels threshold renderer s = true) :
    Over (step threshold renderer s).state := by
  obtain ⟨call, hcall, hasks⟩ := List.any_eq_true.mp h
  rcases ht : s.queue.take with ⟨found, q⟩
  cases found with
  | none =>
    rw [step_of_none ht, List.drop_length] at hcall
    cases hcall
  | some f =>
    rw [step_of_some ht] at hcall ⊢
    cases hj : judge threshold q.count f with
    | shed =>
      rw [handle_of_shed hj, List.drop_length] at hcall
      cases hcall
    | skip =>
      rw [handle_of_skip hj, List.drop_length] at hcall
      cases hcall
    | render image =>
      rw [handle_of_render hj] at hcall ⊢
      rw [List.drop_left, List.mem_singleton] at hcall
      subst hcall
      refine .inl ((cancelled_perform _ q s.cancelled).trans ?_)
      rw [hasks, Bool.or_true]

/-! ## What is left -/

theorem stepped_stores (threshold : Nat) (renderer : Renderer) {n : Nat} {xs : List Frame}
    (h : s.queue.Stores n xs) (k : Nat) :
    ∃ ys, (stepped threshold renderer k s).queue.Stores n ys := by
  induction k generalizing s xs with
  | zero => exact ⟨xs, h⟩
  | succ k ih =>
    obtain ⟨ys, hys, -⟩ := Deal.contents_of_run (step_deals threshold renderer s).run h
    rw [stepped_succ]
    exact ih hys

/-- Takes find what a queue stores, in order. -/
theorem drainFrom_eq {n : Nat} {q : Queue Frame} {xs : List Frame} (h : q.Stores n xs) (m : Nat) :
    (Session.drainFrom q m).1 = xs.take m := by
  induction m generalizing q xs with
  | zero => rfl
  | succ m ih =>
    rw [Session.drainFrom]
    rcases h.take_cases with ⟨rfl, ht⟩ | ⟨x, ys, r, rfl, ht, -, hr⟩
    · rw [ht]
      rfl
    · rw [ht, List.take_succ_cons]
      exact congrArg (x :: ·) (ih hr)

/-- A run returns exactly if some number of steps lead to a state in which it is over; it does the
least such number of steps, and nothing but these. If it has been asked to stop beforehand, it does
none. If the renderer asks for it in a step, this is the last one, and what is in the queue then is
found there by later takes. -/
theorem run_iterates (capacity threshold : Nat) (renderer : Renderer) (s : State) :
    let after (k : Nat) := stepped threshold renderer k s
    let run (bound : Nat) := run capacity threshold renderer undisturbed bound s
    (∀ r, (∃ bound, run bound = some r) ↔
      ∃ k, Over (after k) ∧ (∀ j, j < k → ¬ Over (after j)) ∧
        Iterated capacity threshold renderer s k r) ∧
    (s.cancelled = true → ∀ bound, run bound =
      some ⟨{}, s, [.noted (.started capacity threshold), .noted (.stopped {})]⟩) ∧
    (∀ i, (∀ j, j ≤ i → ¬ Over (after j)) → cancels threshold renderer (after i) = true →
      ∀ bound, i < bound → ∃ r, run bound = some r ∧
        Iterated capacity threshold renderer s (i + 1) r ∧
        ∀ n xs, s.queue.Stores n xs → ∀ m,
          (Session.drainFrom r.state.queue m).1 = (after (i + 1)).queue.toList.take m) := by
  intro after run
  refine ⟨?_, ?_, ?_⟩
  · intro r
    constructor
    · rintro ⟨bound, hr⟩
      obtain ⟨k, -, h⟩ := run_eq_some_iff.mp hr
      exact ⟨k, h⟩
    · rintro ⟨k, h⟩
      exact ⟨k, run_eq_some_iff.mpr ⟨k, Nat.le_refl k, h⟩⟩
  · intro hcancelled bound
    refine run_eq_some_iff.mpr ⟨0, Nat.zero_le bound, .inl hcancelled, ?_, rfl, rfl, rfl⟩
    intro j hj
    exact absurd hj (Nat.not_lt_zero j)
  · intro i hbefore hcancels bound hbound
    have hover : Over (after (i + 1)) := by
      show Over (stepped threshold renderer (i + 1) s)
      rw [stepped_succ']
      exact over_of_cancels hcancels
    obtain ⟨r, hr⟩ := exists_iterated capacity threshold renderer s (i + 1)
    refine ⟨r, run_eq_some_iff.mpr ⟨i + 1, hbound, hover, ?_, hr⟩, hr, ?_⟩
    · intro j hj
      exact hbefore j (Nat.le_of_lt_succ hj)
    · intro n xs hq m
      obtain ⟨ys, hys⟩ := stepped_stores threshold renderer hq (i + 1)
      rw [hr.state, hys.toList_eq]
      exact drainFrom_eq hys m

/-- Of three frames the renderer gets two, and asks for a stop with the second one. The third frame
is left for whoever takes it. -/
theorem run_iterates_until_cancelled :
    let renderer := Renderer.scripted [{}, { cancel := true }]
    let add (q : Queue Frame) (n : Nat) := (q.offer (Session.specimen n)).2
    let s : State := { queue := add (add (add (Queue.empty 5) 1) 2) 3 }
    (∀ j, j ≤ 1 → ¬ Over (stepped 4 renderer j s)) ∧
      cancels 4 renderer (stepped 4 renderer 1 s) = true ∧
      ∃ r, run 5 4 renderer undisturbed 9 s = some r ∧ r.tally = { rendered := 2 } ∧
        (Session.drainFrom r.state.queue 7).1.map Frame.seq = [some 3] := by
  intro renderer add s
  have hadd {q : Queue Frame} {xs : List Frame} (h : q.Stores 5 xs) (n : Nat) :
      ∃ ys, (add q n).Stores 5 ys := by
    have hfits : Deal.Fits q (.exchanged (.offered (Session.specimen n) _)) (add q n) := rfl
    obtain ⟨ys, hys, -⟩ := hfits.contents h
    exact ⟨ys, hys⟩
  have hq : ∃ xs, s.queue.Stores 5 xs := by
    obtain ⟨_, h⟩ := hadd (Queue.stores_empty (Nat.zero_lt_succ 4)) 1
    obtain ⟨_, h⟩ := hadd h 2
    exact hadd h 3
  have hbefore : ∀ j, j ≤ 1 → ¬ Over (stepped 4 renderer j s) := by
    intro j hj
    rw [← stops_undisturbed]
    match j, hj with
    | 0, _ => decide +kernel
    | 1, _ => decide +kernel
  have hcancels : cancels 4 renderer (stepped 4 renderer 1 s) = true := by decide +kernel
  obtain ⟨xs, hq⟩ := hq
  obtain ⟨r, hr, hiterated, hleft⟩ :=
    (run_iterates 5 4 renderer s).2.2 1 hbefore hcancels 9 (by decide)
  refine ⟨hbefore, hcancels, r, hr, ?_, ?_⟩
  · rw [hiterated.tally]
    decide +kernel
  · rw [hleft 5 xs hq 7]
    decide +kernel

end Consumer

end SheddingQueue
