import SheddingQueue.Consumer
import SheddingQueue.Proofs.Likeness

/-!
# Consumers that cannot be told apart

Two consumers work on queues that are `Alike`, each with a renderer of its own. As long as these
renderers do the same with frames that correspond, and hand corresponding frames over, the consumers
do the same as well: what becomes of a frame depends on its image and on how many are waiting, and
on nothing else that it carries.
-/

namespace SheddingQueue

variable {p : Pairing}

/-! ## Renderers -/

inductive Exchange.Alike (p : Pairing) : Exchange → Exchange → Prop where
  | offered {f g : Frame} {answer answer' : Admission Frame} (h : p.pairs f g)
      (ha : answer.Alike p.pairs answer') : Alike p (.offered f answer) (.offered g answer')
  | took {found found' : Option Frame} (h : Option.Rel p.pairs found found') :
      Alike p (.took found) (.took found')
  | closed : Alike p .closed .closed
  | cancelled : Alike p .cancelled .cancelled

structure Call.Alike (p : Pairing) (c c' : Call) : Prop where
  frame : p.pairs c.frame c'.frame
  image_eq : c.image = c'.image
  exchanges : List.Forall₂ (Exchange.Alike p) c.exchanges c'.exchanges
  verdict_eq : c.verdict = c'.verdict

/-- The same plan, but for the frames that are offered: these correspond. How a plan goes on may
depend on the answers, but not on what tells corresponding frames apart. -/
inductive Interaction.Alike (p : Pairing) : Interaction → Interaction → Prop where
  | finish (verdict : Except RenderFault Unit) : Alike p (.finish verdict) (.finish verdict)
  | offer {f g : Frame} {next next' : Admission Frame → Interaction} (h : p.pairs f g)
      (hn : ∀ answer answer', answer.Alike p.pairs answer' →
        Alike p (next answer) (next' answer')) :
      Alike p (.offer f next) (.offer g next')
  | take {next next' : Option Frame → Interaction}
      (hn : ∀ found found', Option.Rel p.pairs found found' → Alike p (next found) (next' found')) :
      Alike p (.take next) (.take next')
  | close {next next' : Interaction} (hn : Alike p next next') :
      Alike p (.close next) (.close next')
  | cancel {next next' : Interaction} (hn : Alike p next next') :
      Alike p (.cancel next) (.cancel next')

structure Interaction.Result.Alike (p : Pairing) (r r' : Interaction.Result) : Prop where
  exchanges : List.Forall₂ (Exchange.Alike p) r.exchanges r'.exchanges
  verdict_eq : r.verdict = r'.verdict
  queue : r.queue.Alike p.pairs r'.queue
  cancelled_eq : r.cancelled = r'.cancelled

theorem Interaction.Result.Alike.after {r r' : Interaction.Result} {e e' : Exchange}
    (h : r.Alike p r') (he : e.Alike p e') : (r.after e).Alike p (r'.after e') :=
  ⟨.cons he h.exchanges, h.verdict_eq, h.queue, h.cancelled_eq⟩

theorem Interaction.Alike.perform {i i' : Interaction} (h : i.Alike p i') {q q' : Queue Frame}
    (hq : q.Alike p.pairs q') (cancelled : Bool) :
    (i.perform q cancelled).Alike p (i'.perform q' cancelled) := by
  induction h generalizing q q' cancelled with
  | finish verdict => exact ⟨.nil, rfl, hq, rfl⟩
  | offer h hn ih =>
    obtain ⟨hanswer, hafter⟩ := hq.offer h
    exact (ih _ _ hanswer hafter cancelled).after (.offered h hanswer)
  | take hn ih =>
    obtain ⟨hfound, hafter⟩ := hq.take
    exact (ih _ _ hfound hafter cancelled).after (.took hfound)
  | close hn ih => exact (ih hq.close cancelled).after .closed
  | cancel hn ih => exact (ih hq true).after .cancelled

/-- Renderers that do the same with corresponding frames after corresponding calls. -/
def Renderer.Alike (p : Pairing) (r r' : Renderer) : Prop :=
  ∀ calls calls', List.Forall₂ (Call.Alike p) calls calls' →
    ∀ f g, p.pairs f g → ∀ image, (r calls f image).Alike p (r' calls' g image)

/-- A renderer that goes by the number of the call and the image alone. It has been called `first`
times before. -/
def Renderer.planned (plan : Nat → List UInt8 → Interaction) (first : Nat) : Renderer :=
  fun earlier _ image => plan (first + earlier.length) image

theorem Renderer.planned_alike {plan plan' : Nat → List UInt8 → Interaction}
    (h : ∀ k image, (plan k image).Alike p (plan' k image)) (first : Nat) :
    Renderer.Alike p (.planned plan first) (.planned plan' first) := by
  intro calls calls' hcalls f g _ image
  rw [planned, planned, hcalls.length_eq]
  exact h _ image

/-! ## Consumers -/

namespace Consumer

variable {renderer renderer' : Renderer} {s s' : State} {f g : Frame}

structure State.Alike (p : Pairing) (s s' : State) : Prop where
  queue : s.queue.Alike p.pairs s'.queue
  cancelled_eq : s.cancelled = s'.cancelled
  calls : List.Forall₂ (Call.Alike p) s.calls s'.calls

structure Result.Alike (p : Pairing) (r r' : Result) : Prop where
  outcome_eq : r.outcome.unnumbered = r'.outcome.unnumbered
  state : r.state.Alike p r'.state
  events : SameEvents r.events r'.events

structure Run.Alike (p : Pairing) (r r' : Run) : Prop where
  tally_eq : r.tally = r'.tally
  state : r.state.Alike p r'.state
  events : SameEvents r.events r'.events

theorem judge_of_image_eq (h : f.image = g.image) (threshold waiting : Nat) :
    judge threshold waiting f = judge threshold waiting g := by
  rw [judge, judge, h]

theorem conclude_alike (seq seq' : Option UInt64) (verdict : Except RenderFault Unit) :
    (conclude seq verdict).1 = (conclude seq' verdict).1 ∧
      SameEvents (conclude seq verdict).2 (conclude seq' verdict).2 := by
  cases verdict <;> exact ⟨rfl, rfl⟩

theorem handle_alike (threshold : Nat) (hr : Renderer.Alike p renderer renderer')
    (hs : s.Alike p s') (hfg : p.pairs f g) :
    (handle threshold renderer s f).Alike p (handle threshold renderer' s' g) := by
  have hcount := hs.queue.count_eq
  have hjudge := judge_of_image_eq (p.image_eq hfg) threshold s.queue.count
  cases hj : judge threshold s.queue.count f with
  | shed =>
    rw [handle_of_shed hj, handle_of_shed (hcount ▸ hjudge.symm.trans hj), hcount]
    exact ⟨rfl, hs, rfl⟩
  | skip =>
    rw [handle_of_skip hj, handle_of_skip (hcount ▸ hjudge.symm.trans hj), hcount]
    exact ⟨rfl, hs, rfl⟩
  | render image =>
    rw [handle_of_render hj, handle_of_render (hcount ▸ hjudge.symm.trans hj), hcount]
    have hi := (hr _ _ hs.calls f g hfg image).perform hs.queue s.cancelled
    rw [← hs.cancelled_eq, ← hi.verdict_eq]
    obtain ⟨hfate, hevents⟩ := conclude_alike f.seq g.seq
      ((renderer s.calls f image).perform s.queue s.cancelled).verdict
    refine ⟨?_, ⟨hi.queue, hi.cancelled_eq, List.rel_append hs.calls (.cons ?_ .nil)⟩, ?_⟩
    · rw [Outcome.unnumbered, Outcome.unnumbered, hfate]
    · exact ⟨hfg, rfl, hi.exchanges, rfl⟩
    · exact hevents.cons rfl

theorem step_alike (threshold : Nat) (hr : Renderer.Alike p renderer renderer')
    (hs : s.Alike p s') : (step threshold renderer s).Alike p (step threshold renderer' s') := by
  rcases hs.queue.take_cases with ⟨ht, ht'⟩ | ⟨f, g, q, q', ht, ht', hfg, hq⟩
  · rw [step_of_none ht, step_of_none ht']
    exact ⟨rfl, hs, rfl⟩
  · rw [step_of_some ht, step_of_some ht']
    exact handle_alike threshold hr ⟨hq, hs.cancelled_eq, hs.calls⟩ hfg

theorem record_of_unnumbered {o o' : Outcome} (h : o.unnumbered = o'.unnumbered) (t : Tally) :
    t.record o = t.record o' := by
  cases o <;> cases o' <;> cases h <;> rfl

variable {halt : Queue Frame → Bool}

theorem stops_eq (hhalt : ∀ q q', q.Alike p.pairs q' → halt q = halt q') (hs : s.Alike p s') :
    stops halt s = stops halt s' := by
  rw [stops, stops, hs.cancelled_eq, hhalt _ _ hs.queue, hs.queue.closed_eq, hs.queue.isEmpty_eq]

/-- Both runs end after the same step, unless neither of them ends. -/
theorem loop_alike (threshold : Nat) (hr : Renderer.Alike p renderer renderer')
    (hhalt : ∀ q q', q.Alike p.pairs q' → halt q = halt q') (bound : Nat) (hs : s.Alike p s')
    (tally : Tally) : Option.Rel (Run.Alike p) (loop threshold renderer halt bound s tally)
      (loop threshold renderer' halt bound s' tally) := by
  induction bound generalizing s s' tally with
  | zero =>
    rw [loop, loop, stops_eq hhalt hs]
    split
    · exact .some ⟨rfl, hs, rfl⟩
    · exact .none
  | succ bound ih =>
    rw [loop, loop, stops_eq hhalt hs]
    split
    · exact .some ⟨rfl, hs, rfl⟩
    · have hstep := step_alike threshold hr hs
      have hrest := ih hstep.state (tally.record (step threshold renderer s).outcome)
      dsimp only
      rw [← record_of_unnumbered hstep.outcome_eq]
      exact rel_map hrest fun _ _ h => ⟨h.tally_eq, h.state, hstep.events.append h.events⟩

theorem run_alike (capacity threshold : Nat) (hr : Renderer.Alike p renderer renderer')
    (hhalt : ∀ q q', q.Alike p.pairs q' → halt q = halt q') (bound : Nat) (hs : s.Alike p s') :
    Option.Rel (Run.Alike p) (run capacity threshold renderer halt bound s)
      (run capacity threshold renderer' halt bound s') := by
  refine rel_map (loop_alike threshold hr hhalt bound hs {}) fun r r' h => ?_
  refine ⟨h.tally_eq, h.state, .append (h.events.cons rfl) ?_⟩
  rw [h.tally_eq]
  rfl

end Consumer

end SheddingQueue
