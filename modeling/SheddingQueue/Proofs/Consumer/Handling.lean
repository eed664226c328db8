import SheddingQueue.Proofs.Session.Intact

/-!
# What one step comes to

A step on an empty queue finds nothing and changes nothing. On any other queue it takes the oldest
frame out for good and reads how many are left behind it, and only then, if at all, the renderer is
called: whatever this does to the queue, the outcome, the counter and the log are about the number
that was read before. `Handled` lists all of this, and `step_idle_or_handled` says that there is
nothing else to a step.
-/

namespace SheddingQueue

/-- The fault that a call ended with. -/
def Call.fault? (c : Call) : Option RenderFault :=
  match c.verdict with
  | .ok () => none
  | .error fault => some fault

/-- What is noted of a frame that meets a fate, with `waiting` others behind it. -/
def Fate.notices (seq : Option UInt64) (waiting : Nat) (faults : List RenderFault) :
    Fate → List Notice
  | .shed => [.shed seq waiting]
  | .noImage => [.processing seq waiting, .noImage seq]
  | .rendered => [.processing seq waiting]
  | .failed => .processing seq waiting :: faults.map (.renderFailed seq)

/-- How this reads in the log. -/
def Fate.texts : Fate → List String
  | .shed => ["skip process"]
  | .noImage => ["process message", "no frame payload; nothing to render"]
  | .rendered => ["process message"]
  | .failed => ["process message", "render failed; frame skipped"]

namespace Consumer

variable {threshold waiting n : Nat} {renderer : Renderer} {s : State} {f : Frame}
  {rest xs : List Frame} {q : Queue Frame} {image : List UInt8}

/-! ## The decision -/

theorem judge_eq_shed_iff : judge threshold waiting f = .shed ↔ threshold ≤ waiting := by
  unfold judge
  split
  · simpa using ‹threshold ≤ waiting›
  · split <;> simpa using ‹¬ threshold ≤ waiting›

theorem judge_eq_skip_iff :
    judge threshold waiting f = .skip ↔ waiting < threshold ∧ f.image = none := by
  unfold judge
  split
  · simp [Nat.not_lt.mpr ‹threshold ≤ waiting›]
  · split <;> simp_all

theorem judge_eq_render_iff :
    judge threshold waiting f = .render image ↔ waiting < threshold ∧ f.image = some image := by
  unfold judge
  split
  · simp [Nat.not_lt.mpr ‹threshold ≤ waiting›]
  · split <;> simp_all

/-! ## The verdict -/

theorem conclude_eq_rendered_iff (seq : Option UInt64) (verdict : Except RenderFault Unit) :
    (conclude seq verdict).1 = .rendered ↔ verdict = .ok () := by
  cases verdict <;> simp [conclude]

theorem conclude_eq_failed_iff (seq : Option UInt64) (verdict : Except RenderFault Unit) :
    (conclude seq verdict).1 = .failed ↔ ∃ fault, verdict = .error fault := by
  cases verdict <;> simp [conclude]

/-- A frame that went to the renderer is neither shed nor without an image. -/
theorem conclude_called (seq : Option UInt64) (verdict : Except RenderFault Unit) :
    (conclude seq verdict).1 ≠ .shed ∧ (conclude seq verdict).1 ≠ .noImage := by
  cases verdict <;> simp [conclude]

theorem notices_conclude (seq : Option UInt64) (waiting : Nat) (call : Call) :
    let c := conclude seq call.verdict
    notices (.noted (.processing seq waiting) :: c.2) =
        c.1.notices seq waiting ([call].filterMap Call.fault?) ∧
      (notices (.noted (.processing seq waiting) :: c.2)).map Notice.text = c.1.texts := by
  obtain ⟨frame, image, exchanges, verdict⟩ := call
  cases verdict <;> exact ⟨rfl, rfl⟩

/-! ## The frame in hand -/

/-- The renderer has been called once more, with the frame `f` and its image. It found the queue
`q` there, and the consumer is left as it left it. -/
structure Called (renderer : Renderer) (s : State) (q : Queue Frame) (f : Frame) (call : Call)
    (after : State) : Prop where
  frame : call.frame = f
  image : f.image = some call.image
  performed : let p := (renderer s.calls f call.image).perform q s.cancelled
    call.exchanges = p.exchanges ∧ call.verdict = p.verdict ∧
      after = ⟨p.queue, p.cancelled, s.calls ++ [call]⟩

/-- What comes of a frame `f` that was taken out with `rest` behind it: `q` is the queue then. -/
structure Handled (threshold : Nat) (renderer : Renderer) (s : State) (f : Frame)
    (rest : List Frame) (q : Queue Frame) (fate : Fate) (r : Result) : Prop where
  /-- The number of frames behind it is the one before the renderer was called. -/
  outcome : r.outcome = .handled fate f.seq rest.length
  shed : fate = .shed ↔ threshold ≤ rest.length
  noImage : fate = .noImage ↔ rest.length < threshold ∧ f.image = none
  rendered : fate = .rendered ↔ rest.length < threshold ∧
    ∃ call, Called renderer s q f call r.state ∧ call.verdict = .ok ()
  failed : fate = .failed ↔ rest.length < threshold ∧
    ∃ call fault, Called renderer s q f call r.state ∧ call.verdict = .error fault
  uncalled : fate = .shed ∨ fate = .noImage → r.state = { s with queue := q }
  /-- What is in the queue has been there before or was stored by the renderer, and what is not
  there any more was taken by the renderer. -/
  contents : let deals := (r.state.calls.drop s.calls.length).flatMap Call.deals
    SheddingQueue.Run Deal.Fits q deals r.state.queue ∧
      rest ++ deals.filterMap Deal.stored? = deals.filterMap Deal.taken? ++ r.state.queue.toList
  counted : ∀ c, increments c r.events = if r.outcome.counter? = some c then 1 else 0
  noted : notices r.events = fate.notices f.seq rest.length
    ((r.state.calls.drop s.calls.length).filterMap Call.fault?)
  texts : (notices r.events).map Notice.text = fate.texts

/-- What a frame in hand is counted for, and what handling it does to the queue, holds whatever
its fate is. -/
theorem handle_contents (threshold : Nat) (renderer : Renderer) (hq : s.queue.Stores n rest)
    (f : Frame) :
    let r := handle threshold renderer s f
    let deals := (r.state.calls.drop s.calls.length).flatMap Call.deals
    (SheddingQueue.Run Deal.Fits s.queue deals r.state.queue ∧
      rest ++ deals.filterMap Deal.stored? = deals.filterMap Deal.taken? ++ r.state.queue.toList) ∧
    ∀ c, increments c r.events = if r.outcome.counter? = some c then 1 else 0 := by
  obtain ⟨calls, h⟩ := handle_account threshold renderer s f
  intro r deals
  have hrun : SheddingQueue.Run Deal.Fits s.queue deals r.state.queue := by
    have hcalls : r.state.calls.drop s.calls.length = calls := by rw [h.calls_eq, List.drop_left]
    rw [show deals = calls.flatMap Call.deals from congrArg (List.flatMap Call.deals) hcalls]
    exact h.run
  obtain ⟨ys, hys, hcontents⟩ := Deal.contents_of_run hrun hq
  rw [hys.toList_eq]
  exact ⟨⟨hrun, hcontents⟩, h.counted⟩

/-- A frame with as many behind it as the threshold is given up, and nothing else is done. -/
theorem handled_of_shed (renderer : Renderer) (hq : q.Stores n rest)
    (hj : judge threshold q.count f = .shed) :
    Handled threshold renderer s f rest q .shed
      (handle threshold renderer { s with queue := q } f) := by
  obtain ⟨hcontents, hcounted⟩ :=
    handle_contents (s := { s with queue := q }) threshold renderer hq f
  have hcount : q.count = rest.length := hq.count_eq
  have hle : threshold ≤ rest.length := hcount ▸ judge_eq_shed_iff.mp hj
  have hnot : ¬ rest.length < threshold := Nat.not_lt.mpr hle
  rw [handle_of_shed hj] at hcontents hcounted ⊢
  refine ⟨?_, ?_, ?_, ?_, ?_, fun _ => rfl, hcontents, hcounted, ?_, rfl⟩
  · rw [hcount]
  · simp [hle]
  · simp [hnot]
  · simp [hnot]
  · simp [hnot]
  · rw [hcount]
    rfl

/-- A frame without an image does not go to the renderer. -/
theorem handled_of_skip (renderer : Renderer) (hq : q.Stores n rest)
    (hj : judge threshold q.count f = .skip) :
    Handled threshold renderer s f rest q .noImage
      (handle threshold renderer { s with queue := q } f) := by
  obtain ⟨hcontents, hcounted⟩ :=
    handle_contents (s := { s with queue := q }) threshold renderer hq f
  have hcount : q.count = rest.length := hq.count_eq
  obtain ⟨hlt, hnone⟩ := judge_eq_skip_iff.mp hj
  rw [hcount] at hlt
  have huncalled {call : Call} {after : State} : ¬ Called renderer s q f call after := by
    intro h
    cases hnone.symm.trans h.image
  rw [handle_of_skip hj] at hcontents hcounted ⊢
  refine ⟨?_, ?_, ?_, ?_, ?_, fun _ => rfl, hcontents, hcounted, ?_, rfl⟩
  · rw [hcount]
  · simp [hlt]
  · simp [hlt, hnone]
  · simp [huncalled]
  · simp [huncalled]
  · rw [hcount]
    rfl

/-- Any other frame meets the fate that the renderer's verdict gives it. -/
theorem handled_of_render (renderer : Renderer) (hq : q.Stores n rest)
    (hj : judge threshold q.count f = .render image) :
    let verdict := ((renderer s.calls f image).perform q s.cancelled).verdict
    Handled threshold renderer s f rest q (conclude f.seq verdict).1
      (handle threshold renderer { s with queue := q } f) := by
  obtain ⟨hcontents, hcounted⟩ :=
    handle_contents (s := { s with queue := q }) threshold renderer hq f
  have hcount : q.count = rest.length := hq.count_eq
  obtain ⟨hlt, himage⟩ := judge_eq_render_iff.mp hj
  rw [hcount] at hlt
  rw [handle_of_render hj] at hcontents hcounted ⊢
  let p := (renderer s.calls f image).perform q s.cancelled
  let call : Call := ⟨f, image, p.exchanges, p.verdict⟩
  let after : State := ⟨p.queue, p.cancelled, s.calls ++ [call]⟩
  have hcalled : Called renderer s q f call after := ⟨rfl, himage, rfl, rfl, rfl⟩
  -- the record of the calls leaves no choice which call it was
  have honly {other : Call} (h : Called renderer s q f other after) : other = call := by
    have hcalls : s.calls ++ [call] = s.calls ++ [other] :=
      congrArg State.calls h.performed.2.2
    exact (List.singleton_inj.mp (List.append_cancel_left hcalls)).symm
  have hnew : after.calls.drop s.calls.length = [call] := List.drop_left
  obtain ⟨hnoted, htexts⟩ := notices_conclude f.seq q.count call
  obtain ⟨hnotShed, hnotNoImage⟩ := conclude_called f.seq p.verdict
  refine ⟨?_, ?_, ?_, ?_, ?_, ?_, hcontents, hcounted, ?_, htexts⟩
  · rw [hcount]
  · simp [p, hnotShed, hlt]
  · simp [p, hnotNoImage, himage]
  · rw [conclude_eq_rendered_iff]
    constructor
    · intro hok
      exact ⟨hlt, call, hcalled, hok⟩
    · rintro ⟨-, other, hother, hok⟩
      rwa [honly hother] at hok
  · rw [conclude_eq_failed_iff]
    constructor
    · rintro ⟨fault, hfault⟩
      exact ⟨hlt, call, fault, hcalled, hfault⟩
    · rintro ⟨-, other, fault, hother, hfault⟩
      rw [honly hother] at hfault
      exact ⟨fault, hfault⟩
  · rintro (h | h)
    · exact absurd h hnotShed
    · exact absurd h hnotNoImage
  · rw [← hcount]
    show _ = Fate.notices _ _ ((after.calls.drop s.calls.length).filterMap Call.fault?) _
    rw [hnew]
    exact hnoted

theorem handle_handled (threshold : Nat) (renderer : Renderer) (hq : q.Stores n rest) (f : Frame) :
    ∃ fate, Handled threshold renderer s f rest q fate
      (handle threshold renderer { s with queue := q } f) := by
  cases hj : judge threshold q.count f with
  | shed => exact ⟨_, handled_of_shed renderer hq hj⟩
  | skip => exact ⟨_, handled_of_skip renderer hq hj⟩
  | render image => exact ⟨_, handled_of_render renderer hq hj⟩

/-! ## The step -/

/-- A step on an empty queue finds nothing and changes nothing. On any other queue it takes the
oldest frame out for good, with all the others left in it, and handles this frame. -/
theorem step_idle_or_handled (threshold : Nat) (renderer : Renderer)
    (hq : s.queue.Stores n xs) :
    match xs with
    | [] => step threshold renderer s = ⟨.idle, s, []⟩
    | f :: rest => ∃ q fate, s.queue.take = (some f, q) ∧ q.Stores n rest ∧
        q.closed = s.queue.closed ∧
        Handled threshold renderer s f rest q fate (step threshold renderer s) := by
  rcases hq.take_cases with ⟨rfl, ht⟩ | ⟨f, rest, q, rfl, ht, hclosed, hrest⟩
  · exact step_of_none ht threshold renderer
  · obtain ⟨fate, hfate⟩ := handle_handled (s := s) threshold renderer hrest f
    rw [← step_of_some ht] at hfate
    exact ⟨q, fate, ht, hrest, hclosed, hfate⟩

/-- Two frames are in the queue. While the renderer has the first one, it takes out the second one,
offers a third one and closes the queue; then it fails. The outcome tells of one frame behind the
first, as there was. -/
theorem step_handled_despite_meddling : ∃ b,
    ({ capacity := 4, threshold := .fixed 2 } : Settings).build Frame = .ok b ∧
    let specimen := Session.specimen
    let offer n : Operation := .offer 0 (.frame (specimen n))
    let meddling : Renderer := fun _ _ _ =>
      .take fun _ => .offer (specimen 3) fun _ => .close (.finish (.error (.decode "corrupt")))
    let s : State := { queue := ((Session.ofBuilt b).after [offer 1, offer 2]).queue }
    let r := step 2 meddling s
    s.queue.Stores 4 [specimen 1, specimen 2] ∧
      (∃ q fate, s.queue.take = (some (specimen 1), q) ∧ q.Stores 4 [specimen 2] ∧
        q.closed = s.queue.closed ∧ Handled 2 meddling s (specimen 1) [specimen 2] q fate r) ∧
      r.outcome = .handled .failed (some 1) 1 ∧ r.state.queue.toList.map Frame.seq = [some 3] := by
  have hb : ({ capacity := 4, threshold := .fixed 2 } : Settings).build Frame =
    .ok ⟨_, _, _, _, _⟩ := rfl
  refine ⟨_, hb, ?_⟩
  intro specimen offer meddling s r
  have hs : s.queue.Stores 4 [specimen 1, specimen 2] :=
    Session.stores_after_build hb [offer 1, offer 2]
  exact ⟨hs, step_idle_or_handled 2 meddling hs, by decide +kernel, by decide +kernel⟩

end Consumer

end SheddingQueue
