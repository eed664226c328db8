import SheddingQueue.Journal
import SheddingQueue.Renderer

/-!
# The consumer

The consumer takes frames out in order. It renders a frame only if fewer than the threshold are
waiting behind it, and gives it up otherwise: `judge` is this rule. `step` is one look at the
queue, and `run` looks until it is asked to stop or the queue is closed and empty.

These functions describe a consumer that is not interrupted: nobody but its renderer touches the
queue meanwhile.
-/

namespace SheddingQueue.Consumer

/-- What to do with a frame. -/
inductive Decision where
  | shed
  | skip
  | render (image : List UInt8)
  deriving DecidableEq, Repr

def judge (threshold waiting : Nat) (f : Frame) : Decision :=
  if threshold ≤ waiting then .shed
  else match f.image with
    | none => .skip
    | some image => .render image

/-- What the consumer works on. -/
structure State where
  queue : Queue Frame
  /-- Whether it has been asked to stop. -/
  cancelled : Bool := false
  /-- The calls of the renderer so far. -/
  calls : List Call := []

structure Result where
  outcome : Outcome
  state : State
  events : List Event

/-- Fate and events of a frame that went to the renderer. -/
def conclude (seq : Option UInt64) : Except RenderFault Unit → Fate × List Event
  | .ok () => (.rendered, [.counted .rendered])
  | .error fault => (.failed, [.counted .renderErrors, .noted (.renderFailed seq fault)])

/-- Let the renderer have a frame. -/
def render (renderer : Renderer) (s : State) (f : Frame) (image : List UInt8) : Call × State :=
  let r := (renderer s.calls f image).perform s.queue s.cancelled
  let call : Call := ⟨f, image, r.exchanges, r.verdict⟩
  (call, ⟨r.queue, r.cancelled, s.calls ++ [call]⟩)

/-- Handle a frame that has been taken out. -/
def handle (threshold : Nat) (renderer : Renderer) (s : State) (f : Frame) : Result :=
  let waiting := s.queue.count
  match judge threshold waiting f with
  | .shed =>
    ⟨.handled .shed f.seq waiting, s, [.counted .shed, .noted (.shed f.seq waiting)]⟩
  | .skip =>
    ⟨.handled .noImage f.seq waiting, s,
      [.noted (.processing f.seq waiting), .noted (.noImage f.seq)]⟩
  | .render image =>
    let (call, after) := render renderer s f image
    let (fate, events) := conclude f.seq call.verdict
    ⟨.handled fate f.seq waiting, after, .noted (.processing f.seq waiting) :: events⟩

theorem handle_of_shed {threshold : Nat} {s : State} {f : Frame}
    (h : judge threshold s.queue.count f = .shed) (renderer : Renderer) :
    handle threshold renderer s f = ⟨.handled .shed f.seq s.queue.count, s,
      [.counted .shed, .noted (.shed f.seq s.queue.count)]⟩ := by
  rw [handle, h]

theorem handle_of_skip {threshold : Nat} {s : State} {f : Frame}
    (h : judge threshold s.queue.count f = .skip) (renderer : Renderer) :
    handle threshold renderer s f = ⟨.handled .noImage f.seq s.queue.count, s,
      [.noted (.processing f.seq s.queue.count), .noted (.noImage f.seq)]⟩ := by
  rw [handle, h]

theorem handle_of_render {threshold : Nat} {s : State} {f : Frame} {image : List UInt8}
    (h : judge threshold s.queue.count f = .render image) (renderer : Renderer) :
    let r := (renderer s.calls f image).perform s.queue s.cancelled
    let c := conclude f.seq r.verdict
    handle threshold renderer s f = ⟨.handled c.1 f.seq s.queue.count,
      ⟨r.queue, r.cancelled, s.calls ++ [⟨f, image, r.exchanges, r.verdict⟩]⟩,
      .noted (.processing f.seq s.queue.count) :: c.2⟩ := by
  rw [handle, h]
  rfl

/-- Take the oldest frame, if there is one, and handle it. -/
def step (threshold : Nat) (renderer : Renderer) (s : State) : Result :=
  match s.queue.takeWithin id with
  | (none, q) => ⟨.idle, { s with queue := q }, []⟩
  | (some f, q) => handle threshold renderer { s with queue := q } f

theorem step_of_none {s : State} {q : Queue Frame} (h : s.queue.take = (none, q))
    (threshold : Nat) (renderer : Renderer) :
    step threshold renderer s = ⟨.idle, { s with queue := q }, []⟩ := by
  rw [step, Queue.takeWithin_id, h]

theorem step_of_some {s : State} {f : Frame} {q : Queue Frame} (h : s.queue.take = (some f, q))
    (threshold : Nat) (renderer : Renderer) :
    step threshold renderer s = handle threshold renderer { s with queue := q } f := by
  rw [step, Queue.takeWithin_id, h]

/-- What a run comes to. -/
structure Run where
  tally : Tally
  state : State
  events : List Event

/-- Whether a run ends here. `halt` says whether someone outside asks for it. -/
def stops (halt : Queue Frame → Bool) (s : State) : Bool :=
  s.cancelled || halt s.queue || (s.queue.closed && s.queue.isEmpty)

/-- Steps until it is time to stop; none if that is not so after `bound` of them. -/
def loop (threshold : Nat) (renderer : Renderer) (halt : Queue Frame → Bool) :
    (bound : Nat) → State → Tally → Option Run
  | 0, s, tally => if stops halt s then some ⟨tally, s, []⟩ else none
  | bound + 1, s, tally =>
    if stops halt s then some ⟨tally, s, []⟩
    else
      let r := step threshold renderer s
      (loop threshold renderer halt bound r.state (tally.record r.outcome)).map fun run =>
        { run with events := r.events ++ run.events }

/-- A whole run, of at most `bound` steps. -/
def run (capacity threshold : Nat) (renderer : Renderer) (halt : Queue Frame → Bool)
    (bound : Nat) (s : State) : Option Run :=
  (loop threshold renderer halt bound s {}).map fun run =>
    let first : Event := .noted (.started capacity threshold)
    let last : Event := .noted (.stopped run.tally)
    { run with events := first :: run.events ++ [last] }

end SheddingQueue.Consumer
