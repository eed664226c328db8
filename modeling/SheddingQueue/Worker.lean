import SheddingQueue.Consumer

/-!
# The consumer as a thread

Where others work on the queue at the same time, a run of the consumer is a sequence of turns. In
one turn it looks at the queue once, and the others may do anything between two turns. `Phase`
says what it will do in its next turn, `Worker.turn` does it.

The renderer of a worker leaves the queue alone, so all that is known of it is its verdict.
-/

namespace SheddingQueue

/-- Accepts or refuses a frame with its image. -/
abbrev Verdict := Frame → List UInt8 → Except RenderFault Unit

namespace Worker

inductive Phase where
  /-- See whether it has been asked to stop. -/
  | poised
  /-- See whether the queue is closed. -/
  | askClosed
  /-- The queue was closed; see whether it is empty. -/
  | askEmpty
  /-- Take a frame, or go to sleep if there is none. -/
  | reach
  /-- Awake again: take a frame if there is one. -/
  | wake
  /-- Count the frames behind the one in hand, and handle it. -/
  | holding (f : Frame)
  | finished
  deriving Repr

end Worker

structure Worker where
  phase : Worker.Phase := .poised
  tally : Tally := {}
  deriving Repr

namespace Worker

def finishes (w : Worker) : Bool :=
  match w.phase with
  | .finished => true
  | _ => false

/-- Fate and events of a frame with `waiting` others behind it. -/
def settle (threshold waiting : Nat) (verdict : Verdict) (f : Frame) : Fate × List Event :=
  match Consumer.judge threshold waiting f with
  | .shed => (.shed, [.counted .shed, .noted (.shed f.seq waiting)])
  | .skip => (.noImage, [.noted (.processing f.seq waiting), .noted (.noImage f.seq)])
  | .render image =>
    let (fate, events) := Consumer.conclude f.seq (verdict f image)
    (fate, .noted (.processing f.seq waiting) :: events)

/-- The end of a run. -/
def finish (w : Worker) : Worker × List Event :=
  ({ w with phase := .finished }, [.noted (.stopped w.tally)])

/-- The last look at the queue for one frame. -/
def take (w : Worker) (q : Queue Frame) : Worker × Queue Frame :=
  match q.take with
  | (some f, q) => ({ w with phase := .holding f }, q)
  | (none, q) => ({ w with phase := .poised }, q)

/-- One turn: the worker, the queue and the events after it. -/
def turn (threshold : Nat) (verdict : Verdict) (cancelled : Bool) (q : Queue Frame) (w : Worker) :
    Worker × Queue Frame × List Event :=
  match w.phase with
  | .poised =>
    if cancelled then
      let (w, events) := w.finish
      (w, q, events)
    else ({ w with phase := .askClosed }, q, [])
  | .askClosed => ({ w with phase := if q.closed then .askEmpty else .reach }, q, [])
  | .askEmpty =>
    if q.isEmpty then
      let (w, events) := w.finish
      (w, q, events)
    else ({ w with phase := .reach }, q, [])
  | .reach =>
    if q.takeWaits then ({ w with phase := .wake }, q, [])
    else
      let (w, q) := w.take q
      (w, q, [])
  | .wake =>
    let (w, q) := w.take q
    (w, q, [])
  | .holding f =>
    let (fate, events) := settle threshold q.count verdict f
    (⟨.poised, w.tally.count fate⟩, q, events)
  | .finished => (w, q, [])

end Worker

end SheddingQueue
