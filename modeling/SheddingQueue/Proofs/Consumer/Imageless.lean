import SheddingQueue.Frame.Making
import SheddingQueue.Proofs.Consumer.Handling
import SheddingQueue.Proofs.Frame.Message

/-!
# Frames without an image

A frame without an image is no work for the renderer. An image of no bytes should not be any
either, and a message never gives one: an empty text under `frameData` counts as no image. But
`Frame.withImage` attaches what it is given, and what is attached goes to the renderer.
`Consumer.passesOver_iff` says which of the frames without a single byte of an image are passed
over, for every way in which a frame comes about.
-/

namespace SheddingQueue

/-! ## Images -/

/-- An image of no bytes has been attached as such. -/
theorem Making.image_eq_nil_iff {m : Making} {f : Frame} (h : m.frame? = some f) :
    f.image = some [] ↔ m.attached? = some [] := by
  induction m generalizing f with
  | blank =>
    cases h
    simp [Frame.blank, attached?]
  | numbered n =>
    cases h
    simp [Frame.numbered, Frame.blank, attached?]
  | message bytes =>
    have hmessage : Frame.ofMessage bytes = .ok f := ofMessage_of_message h
    simp [Frame.ofMessage_image_ne_nil hmessage, attached?]
  | withImage m bytes ih =>
    obtain ⟨g, -, rfl⟩ := Option.map_eq_some_iff.mp h
    simp [Frame.withImage, attached?]
  | withField m key value ih =>
    obtain ⟨g, hg, rfl⟩ := Option.map_eq_some_iff.mp h
    have hsame : g.image = some [] ↔ _ := ih hg
    exact hsame

namespace Consumer

/-- Handling the frame does not involve the renderer. Unless it is shed it is seen to have no image,
and neither of the renderer's counters moves. -/
def PassesOver (threshold : Nat) (renderer : Renderer) (s : State) (f : Frame) : Prop :=
  let r := handle threshold renderer s f
  r.state = s ∧ (s.queue.count < threshold →
    r.outcome = .handled .noImage f.seq s.queue.count ∧
      increments .rendered r.events = 0 ∧ increments .renderErrors r.events = 0)

variable {threshold : Nat} {renderer : Renderer} {s : State} {f : Frame} {m : Making}

theorem passesOver_of_shed (h : threshold ≤ s.queue.count) (renderer : Renderer) (f : Frame) :
    PassesOver threshold renderer s f := by
  have hj : judge threshold s.queue.count f = .shed := judge_eq_shed_iff.mpr h
  rw [PassesOver, handle_of_shed hj]
  exact ⟨rfl, fun hlt => absurd h (Nat.not_le.mpr hlt)⟩

theorem passesOver_of_none (h : f.image = none) (threshold : Nat) (renderer : Renderer)
    (s : State) : PassesOver threshold renderer s f := by
  rcases Nat.lt_or_ge s.queue.count threshold with hlt | hge
  · have hj : judge threshold s.queue.count f = .skip := judge_eq_skip_iff.mpr ⟨hlt, h⟩
    rw [PassesOver, handle_of_skip hj]
    exact ⟨rfl, fun _ => ⟨rfl, rfl, rfl⟩⟩
  · exact passesOver_of_shed hge renderer f

/-- Any image at all goes to the renderer. -/
theorem called_of_some {image : List UInt8} (hlt : s.queue.count < threshold)
    (h : f.image = some image) (renderer : Renderer) :
    ∃ call, call.image = image ∧
      Called renderer s s.queue f call (handle threshold renderer s f).state := by
  have hj : judge threshold s.queue.count f = .render image := judge_eq_render_iff.mpr ⟨hlt, h⟩
  rw [handle_of_render hj]
  exact ⟨⟨f, image, _, _⟩, rfl, rfl, h, rfl, rfl, rfl⟩

/-- A call leaves a trace. -/
theorem Called.state_ne {q : Queue Frame} {call : Call} {after : State}
    (h : Called renderer s q f call after) : after ≠ s := by
  intro heq
  have hcalls : s.calls = s.calls ++ [call] :=
    (congrArg State.calls heq).symm.trans (congrArg State.calls h.performed.2.2)
  simpa using congrArg List.length hcalls

/-- A frame without a single byte of an image is passed over unless it is not shed and an image of
no bytes was attached to it last. In this case it goes to the renderer. -/
theorem passesOver_iff (hf : m.frame? = some f) (himage : f.image = none ∨ f.image = some [])
    (threshold : Nat) (renderer : Renderer) (s : State) :
    (PassesOver threshold renderer s f ↔
      threshold ≤ s.queue.count ∨ m.attached? ≠ some []) ∧
    (s.queue.count < threshold → m.attached? = some [] → ∃ call, call.image = [] ∧
      Called renderer s s.queue f call (handle threshold renderer s f).state) := by
  have hnil := Making.image_eq_nil_iff hf
  have hcalled (hlt : s.queue.count < threshold) (hattached : m.attached? = some []) :=
    called_of_some hlt (hnil.mpr hattached) renderer
  refine ⟨⟨fun h => ?_, fun h => ?_⟩, hcalled⟩
  · by_contra hnot
    obtain ⟨hlt, hattached⟩ := not_or.mp hnot
    obtain ⟨call, -, hcall⟩ := hcalled (Nat.not_le.mp hlt) (not_not.mp hattached)
    exact hcall.state_ne h.1
  · rcases h with hge | hattached
    · exact passesOver_of_shed hge renderer f
    · have hnone : f.image = none := himage.resolve_right fun h => hattached (hnil.mp h)
      exact passesOver_of_none hnone threshold renderer s

/-- A frame with a number and a field is passed over. -/
theorem passesOver_numbered :
    let m : Making := .withField (.numbered 1) "camera" (.scalar (.text "front"))
    ∃ f, m.frame? = some f ∧ f.image = none ∧ m.attached? ≠ some [] ∧
      PassesOver 1 .accepting { queue := .empty 2 } f := by
  intro m
  have hf : m.frame? = some _ := rfl
  have hattached : m.attached? ≠ some [] := nofun
  obtain ⟨hpassed, -⟩ := passesOver_iff hf (.inl rfl) 1 .accepting { queue := .empty 2 }
  exact ⟨_, hf, rfl, hattached, hpassed.mpr (.inr hattached)⟩

/-- A frame to which an image of no bytes was attached is rendered. -/
theorem empty_image_rendered : ∃ b, ({} : Settings).build Frame = .ok b ∧
    ∃ f, (Making.withImage (.numbered 1) []).frame? = some f ∧ f.image = some [] ∧
      let s : State := { queue := b.queue }
      (handle b.watch.threshold .accepting s f).outcome = .handled .rendered (some 1) 0 ∧
        ¬ PassesOver b.watch.threshold .accepting s f := by
  have hb : ({} : Settings).build Frame = .ok ⟨_, _, _, _, _⟩ := rfl
  refine ⟨_, hb, _, rfl, rfl, rfl, fun h => ?_⟩
  have hcalls := congrArg State.calls h.1
  cases hcalls

end Consumer

end SheddingQueue
