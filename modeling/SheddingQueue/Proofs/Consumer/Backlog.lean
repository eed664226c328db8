import SheddingQueue.Proofs.Consumer.Dwindling

/-!
# How a backlog is divided

When a closed queue is drained, each frame has all those behind it that came later. So the frames
at the front, which have at least as many behind them as the threshold, are given up, and the
others are the renderer's, as far as they have an image. `Division` follows the frames one after
another; `run_divides_backlog` says what it comes to, for a renderer that leaves the queue alone.
-/

namespace SheddingQueue

/-- A renderer that judges every frame, and leaves the queue alone. Like any other it may go by its
earlier calls. -/
def Renderer.aloof (verdict : List Call → Frame → List UInt8 → Except RenderFault Unit) : Renderer :=
  fun earlier f image => .finish (verdict earlier f image)

/-- Whether the renderer accepted a frame, if it got it. -/
def Outcome.accepted? : Outcome → Option Bool
  | .handled .rendered _ _ => some true
  | .handled .failed _ _ => some false
  | .handled .shed _ _ | .handled .noImage _ _ | .idle => none

namespace Consumer

/-- How many frames of a backlog are given up: all but as many as the threshold. -/
def givenUp (threshold : Nat) (xs : List Frame) : Nat := xs.length - min xs.length threshold

/-- What becomes of the frames of a backlog, of the first one while all the others are behind it, and
then of these. The renderer has had the calls `earlier`, and has `calls` more. -/
inductive Division (threshold : Nat)
    (verdict : List Call → Frame → List UInt8 → Except RenderFault Unit) :
    (earlier : List Call) → List Frame → List Outcome → (calls : List Call) → Prop where
  | done {earlier : List Call} : Division threshold verdict earlier [] [] []
  | shed {earlier calls : List Call} {f : Frame} {rest : List Frame} {os : List Outcome} :
      threshold ≤ rest.length → Division threshold verdict earlier rest os calls →
      Division threshold verdict earlier (f :: rest) (.handled .shed f.seq rest.length :: os) calls
  | noImage {earlier calls : List Call} {f : Frame} {rest : List Frame} {os : List Outcome} :
      rest.length < threshold → f.image = none →
      Division threshold verdict earlier rest os calls →
      Division threshold verdict earlier (f :: rest) (.handled .noImage f.seq rest.length :: os)
        calls
  | called {earlier calls : List Call} {f : Frame} {rest : List Frame} {os : List Outcome}
      {image : List UInt8} {call : Call} :
      rest.length < threshold → f.image = some image →
      call = ⟨f, image, [], verdict earlier f image⟩ →
      Division threshold verdict (earlier ++ [call]) rest os calls →
      Division threshold verdict earlier (f :: rest)
        (.handled (conclude f.seq call.verdict).1 f.seq rest.length :: os) (call :: calls)

variable {threshold n : Nat} {xs rest : List Frame} {f : Frame}
  {verdict : List Call → Frame → List UInt8 → Except RenderFault Unit}
  {earlier calls : List Call} {os : List Outcome}

/-! ## Places -/

theorem givenUp_cons_of_le (h : threshold ≤ rest.length) :
    givenUp threshold (f :: rest) = givenUp threshold rest + 1 := by
  simp only [givenUp, List.length_cons]
  omega

theorem givenUp_of_lt (h : rest.length < threshold) :
    givenUp threshold (f :: rest) = 0 ∧ givenUp threshold rest = 0 := by
  simp only [givenUp, List.length_cons]
  omega

/-- Whether a fate goes with place `i` of a backlog, where there is the frame `f`. -/
structure Suits (threshold : Nat) (xs : List Frame) (i : Nat) (f : Frame) (fate : Fate) : Prop where
  shed : fate = .shed ↔ i < givenUp threshold xs
  noImage : fate = .noImage ↔ givenUp threshold xs ≤ i ∧ f.image = none

/-- Every frame is handled in its turn, with all later ones behind it, and its fate is one that goes
with its place. -/
def ByPlace (threshold : Nat) (xs : List Frame) (os : List Outcome) : Prop :=
  ∀ i f, xs[i]? = some f →
    ∃ fate, os[i]? = some (.handled fate f.seq (xs.length - (i + 1))) ∧ Suits threshold xs i f fate

/-- What is true of a place stays true when there is one frame more in front. -/
theorem Suits.cons {i : Nat} {fate : Fate} (h : Suits threshold rest i f fate) (g : Frame) :
    Suits threshold (g :: rest) (i + 1) f fate := by
  obtain ⟨hshed, hnone⟩ := h
  rcases Nat.lt_or_ge rest.length threshold with hlt | hle
  · obtain ⟨hcons, hrest⟩ := givenUp_of_lt (f := g) hlt
    rw [hrest] at hshed hnone
    refine ⟨?_, ?_⟩ <;> rw [hcons]
    · exact hshed.trans (by simp)
    · exact hnone.trans (by simp)
  · refine ⟨?_, ?_⟩ <;> rw [givenUp_cons_of_le hle]
    · exact hshed.trans Nat.succ_lt_succ_iff.symm
    · rw [hnone, Nat.succ_le_succ_iff]

theorem ByPlace.cons {fate : Fate} (hf : Suits threshold (f :: rest) 0 f fate)
    (h : ByPlace threshold rest os) :
    ByPlace threshold (f :: rest) (.handled fate f.seq rest.length :: os) := by
  intro i g hg
  cases i with
  | zero =>
    cases hg
    exact ⟨fate, rfl, hf⟩
  | succ i =>
    obtain ⟨later, hlater, hsuits⟩ := h i g hg
    refine ⟨later, ?_, hsuits.cons f⟩
    rw [List.getElem?_cons_succ, hlater, List.length_cons, Nat.succ_sub_succ]

/-! ## What a division comes to -/

namespace Division

theorem length_eq (h : Division threshold verdict earlier xs os calls) : os.length = xs.length := by
  induction h with
  | done => rfl
  | shed _ _ ih | noImage _ _ _ ih | called _ _ _ _ ih => exact congrArg (· + 1) ih

theorem byPlace (h : Division threshold verdict earlier xs os calls) : ByPlace threshold xs os := by
  induction h with
  | done => exact fun i f hf => by cases hf
  | shed hle _ ih =>
    refine ih.cons ⟨?_, ?_⟩ <;> simp [givenUp_cons_of_le hle]
  | @noImage _ _ f _ _ hlt hnone _ ih =>
    refine ih.cons ⟨?_, ?_⟩ <;> simp [(givenUp_of_lt (f := f) hlt).1, hnone]
  | @called _ _ f _ _ _ call hlt himage _ _ ih =>
    obtain ⟨hshed, hskipped⟩ := conclude_called f.seq call.verdict
    refine ih.cons ⟨?_, ?_⟩ <;> simp [(givenUp_of_lt (f := f) hlt).1, himage, hshed, hskipped]

/-- The renderer gets the frames that are not given up and have an image, each once and in order. -/
theorem calls_eq (h : Division threshold verdict earlier xs os calls) :
    calls.map (fun c => (c.frame, c.image)) =
      (xs.drop (givenUp threshold xs)).filterMap fun f => f.image.map (f, ·) := by
  induction h with
  | done => rfl
  | shed hle _ ih => rw [givenUp_cons_of_le hle, List.drop_succ_cons, ih]
  | @noImage _ _ f _ _ hlt hnone _ ih =>
    obtain ⟨hcons, hrest⟩ := givenUp_of_lt (f := f) hlt
    rw [hrest] at ih
    rw [hcons, ih]
    simp [hnone]
  | @called _ _ f _ _ _ _ hlt himage hcall _ ih =>
    obtain ⟨hcons, hrest⟩ := givenUp_of_lt (f := f) hlt
    rw [hrest] at ih
    rw [hcons, List.map_cons, ih, hcall]
    simp [himage]

/-- It judges each of them by the calls before. -/
theorem judged (h : Division threshold verdict earlier xs os calls) (i : Nat) {c : Call}
    (hc : calls[i]? = some c) :
    c.exchanges = [] ∧ c.verdict = verdict (earlier ++ calls.take i) c.frame c.image := by
  induction h generalizing i with
  | done => cases hc
  | shed _ _ ih | noImage _ _ _ ih => exact ih i hc
  | called _ _ hcall _ ih =>
    cases i with
    | zero =>
      cases hc
      rw [hcall, List.take_zero, List.append_nil]
      exact ⟨rfl, rfl⟩
    | succ i =>
      rw [List.take_succ_cons, List.append_cons]
      exact ih i hc

theorem accepted (h : Division threshold verdict earlier xs os calls) :
    os.filterMap Outcome.accepted? = calls.map (·.verdict.isOk) := by
  induction h with
  | done => rfl
  | shed _ _ ih | noImage _ _ _ ih => exact ih
  | @called _ _ _ _ _ _ call _ _ _ _ ih =>
    obtain ⟨frame, image, exchanges, verdict⟩ := call
    cases verdict <;> exact congrArg (_ :: ·) ih

theorem tally (h : Division threshold verdict earlier xs os calls) (t : Tally) :
    os.foldl Tally.record t =
      { rendered := t.rendered + calls.countP (·.verdict.isOk)
        shed := t.shed + givenUp threshold xs
        noImage := t.noImage + (xs.drop (givenUp threshold xs)).countP (·.image.isNone)
        failed := t.failed + calls.countP (!·.verdict.isOk) } := by
  induction h generalizing t with
  | done => simp [givenUp]
  | shed hle _ ih =>
    rw [List.foldl_cons, ih, givenUp_cons_of_le hle, List.drop_succ_cons]
    simp only [Tally.record, Tally.count, Tally.mk.injEq, true_and, and_true]
    omega
  | @noImage _ _ f _ _ hlt hnone _ ih =>
    obtain ⟨hcons, hrest⟩ := givenUp_of_lt (f := f) hlt
    rw [hrest] at ih
    rw [List.foldl_cons, ih, hcons]
    simp [Tally.record, Tally.count, hnone]
    omega
  | @called _ _ f _ _ _ call hlt himage _ _ ih =>
    obtain ⟨hcons, hrest⟩ := givenUp_of_lt (f := f) hlt
    rw [hrest] at ih
    rw [List.foldl_cons, ih, hcons]
    cases hverdict : call.verdict <;>
      simp [Tally.record, Tally.count, conclude, hverdict, himage, Except.isOk, Except.toBool] <;>
      omega

/-- Every frame is counted once. -/
theorem total (h : Division threshold verdict earlier xs os calls) (t : Tally) :
    (os.foldl Tally.record t).total = t.total + xs.length := by
  induction h generalizing t with
  | done => rfl
  | shed _ _ ih | noImage _ _ _ ih | called _ _ _ _ ih =>
    rw [List.foldl_cons, ih, Tally.total_record_handled, List.length_cons]
    omega

end Division

/-! ## Runs -/

variable {s : State}

/-- One step does the first part of a division, and what it leaves is the rest of it. -/
theorem step_aloof (threshold : Nat)
    (verdict : List Call → Frame → List UInt8 → Except RenderFault Unit)
    (hq : s.queue.Stores n (f :: rest)) :
    let r := step threshold (.aloof verdict) s
    r.state.queue.Stores n rest ∧ r.state.queue.closed = s.queue.closed ∧
      r.state.cancelled = s.cancelled ∧ ∃ new, r.state.calls = s.calls ++ new ∧
        ∀ os calls, Division threshold verdict r.state.calls rest os calls →
          Division threshold verdict s.calls (f :: rest) (r.outcome :: os) (new ++ calls) := by
  rcases hq.take_cases with ⟨hnil, -⟩ | ⟨f, rest, q, hcons, ht, hclosed, hrest⟩
  · cases hnil
  cases hcons
  rw [step_of_some ht]
  have hcount : q.count = rest.length := hrest.count_eq
  cases hj : judge threshold q.count f with
  | shed =>
    have hle : threshold ≤ rest.length := hcount ▸ judge_eq_shed_iff.mp hj
    rw [handle_of_shed hj]
    refine ⟨hrest, hclosed, rfl, [], (List.append_nil _).symm, ?_⟩
    intro os calls h
    rw [hcount]
    exact .shed hle h
  | skip =>
    obtain ⟨hlt, hnone⟩ := judge_eq_skip_iff.mp hj
    rw [handle_of_skip hj]
    refine ⟨hrest, hclosed, rfl, [], (List.append_nil _).symm, ?_⟩
    intro os calls h
    rw [hcount] at hlt ⊢
    exact .noImage hlt hnone h
  | render image =>
    obtain ⟨hlt, himage⟩ := judge_eq_render_iff.mp hj
    rw [handle_of_render hj]
    refine ⟨hrest, hclosed, rfl, [_], rfl, ?_⟩
    intro os calls h
    rw [hcount] at hlt ⊢
    exact .called hlt himage rfl h

/-- A closed queue is drained by as many steps as there are frames in it. -/
theorem exists_division (threshold : Nat)
    (verdict : List Call → Frame → List UInt8 → Except RenderFault Unit)
    (hq : s.queue.Stores n xs) (hc : s.queue.closed = true) (hs : s.cancelled = false) :
    let after := stepped threshold (.aloof verdict) xs.length s
    StopsAfter threshold (.aloof verdict) undisturbed xs.length s ∧ after.cancelled = false ∧
      after.queue.toList = [] ∧ ∃ calls, after.calls = s.calls ++ calls ∧
        Division threshold verdict s.calls xs
          ((results threshold (.aloof verdict) xs.length s).map Result.outcome) calls := by
  induction xs generalizing s with
  | nil =>
    refine ⟨stopsAfter_zero.mpr ?_, hs, hq.toList_eq, [], (List.append_nil _).symm, .done⟩
    rw [stops_of_closed hq hc]
    exact Bool.or_true s.cancelled
  | cons f rest ih =>
    have hbusy : stops undisturbed s = false := by
      rw [stops_of_closed hq hc, hs]
      rfl
    obtain ⟨hq', hc', hs', new, hnew, hfirst⟩ := step_aloof threshold verdict hq
    obtain ⟨hstops, hcancelled, hempty, calls, hcalls, hrest⟩ :=
      ih hq' (hc'.trans hc) (hs'.trans hs)
    rw [List.length_cons, stepped_succ, results_succ]
    refine ⟨stopsAfter_succ.mpr ⟨hbusy, hstops⟩, hcancelled, hempty, new ++ calls, ?_, ?_⟩
    · rw [hcalls, hnew, List.append_assoc]
    · exact hfirst _ calls hrest

/-- How a backlog was divided: `calls` are those that the renderer has had beyond `earlier`. -/
structure Divided (threshold : Nat)
    (verdict : List Call → Frame → List UInt8 → Except RenderFault Unit) (earlier : List Call)
    (xs : List Frame) (outcomes : List Outcome) (calls : List Call) (tally : Tally) : Prop where
  length : outcomes.length = xs.length
  /-- The first frames are given up, and of the others those without an image are skipped. -/
  places : ByPlace threshold xs outcomes
  /-- All others went to the renderer, each once and in order, with their own images. -/
  shown : calls.map (fun c => (c.frame, c.image)) =
    (xs.drop (givenUp threshold xs)).filterMap fun f => f.image.map (f, ·)
  judged : ∀ i c, calls[i]? = some c →
    c.exchanges = [] ∧ c.verdict = verdict (earlier ++ calls.take i) c.frame c.image
  /-- One after another they were rendered or failed as the renderer judged. -/
  accepted : outcomes.filterMap Outcome.accepted? = calls.map (·.verdict.isOk)
  counted : tally =
    { shed := givenUp threshold xs
      noImage := (xs.drop (givenUp threshold xs)).countP (·.image.isNone)
      rendered := calls.countP (·.verdict.isOk)
      failed := calls.countP (!·.verdict.isOk) }
  total : tally.total = xs.length

/-- A run on a closed queue does one step for each frame in it and leaves it empty. The frames at the
front are given up as long as there are at least as many behind them as the threshold, and the rest
is for the renderer. -/
theorem run_divides_backlog (capacity threshold : Nat)
    (verdict : List Call → Frame → List UInt8 → Except RenderFault Unit)
    (hq : s.queue.Stores n xs) (hc : s.queue.closed = true) (hs : s.cancelled = false) :
    ∃ r calls, Performs capacity threshold (.aloof verdict) s xs.length r ∧
      r.state.queue.toList = [] ∧ r.state.cancelled = false ∧ r.state.calls = s.calls ++ calls ∧
      Divided threshold verdict s.calls xs
        ((results threshold (.aloof verdict) xs.length s).map Result.outcome) calls r.tally := by
  obtain ⟨hstops, hcancelled, hempty, calls, hcalls, h⟩ := exists_division threshold verdict hq hc hs
  obtain ⟨r, hr⟩ := performs_of_stopsAfter capacity hstops
  obtain ⟨htally, hstate, -⟩ := hr.iterated
  rw [← hstate] at hcancelled hempty hcalls
  refine ⟨r, calls, hr, hempty, hcancelled, hcalls, h.length_eq, h.byPlace, h.calls_eq,
    fun i c => h.judged i, h.accepted, ?_, ?_⟩
  · rw [htally, h.tally]
    simp
  · rw [htally, h.total]
    exact Nat.zero_add _

/-- Of five frames the first two are given up and the fourth one has no image. The renderer accepts
the first frame it gets and fails with the second one. -/
theorem run_divides_backlog_of_five : ∃ b,
    ({ capacity := 6, threshold := .fixed 3 } : Settings).build Frame = .ok b ∧
    let xs := [Session.specimen 1, Session.specimen 2, Session.specimen 3, .numbered 4,
      Session.specimen 5]
    let ops := xs.map (fun f => Operation.offer 0 (.frame f)) ++ [.closeQueue]
    let verdict (earlier : List Call) (_ : Frame) (_ : List UInt8) : Except RenderFault Unit :=
      if earlier.isEmpty then .ok () else .error (.present "no screen")
    let s : State := { queue := ((Session.ofBuilt b).after ops).queue }
    s.queue.Stores 6 xs ∧ s.queue.closed = true ∧ s.cancelled = false ∧
      ∃ r calls, Performs 6 3 (.aloof verdict) s 5 r ∧
        Divided 3 verdict [] xs ((results 3 (.aloof verdict) 5 s).map Result.outcome) calls r.tally ∧
        r.tally = { rendered := 1, shed := 2, noImage := 1, failed := 1 } := by
  have hb : ({ capacity := 6, threshold := .fixed 3 } : Settings).build Frame =
    .ok ⟨_, _, _, _, _⟩ := rfl
  refine ⟨_, hb, ?_⟩
  intro xs ops verdict s
  have hq : s.queue.Stores 6 xs := Session.stores_after_build hb ops
  have hc : s.queue.closed = true := by decide +kernel
  obtain ⟨r, calls, hr, -, -, -, hdivided⟩ := run_divides_backlog 6 3 verdict hq hc rfl
  have hrun : run 6 3 (.aloof verdict) undisturbed 5 s = some r := hr.returns 5
  have htally : (run 6 3 (.aloof verdict) undisturbed 5 s).map Run.tally =
      some { rendered := 1, shed := 2, noImage := 1, failed := 1 } := by decide +kernel
  rw [hrun] at htally
  exact ⟨hq, hc, rfl, r, calls, hr, hdivided, Option.some_inj.mp htally⟩

end Consumer

end SheddingQueue
