import SheddingQueue.Frame.Message
import SheddingQueue.Producer

/-!
# A producer as a thread

A feed enqueues a numbered sequence of frames and then closes the queue. Like the consumer's
thread it does so in turns, each of which looks at the queue at most once, and the others may do
anything between two turns. Under the policy `retry` an attempt that finds the queue full sleeps
before it offers the frame.
-/

namespace SheddingQueue

namespace Feed

/-- What a feed is to do: the sources from number one to `last`. -/
structure Plan where
  policy : Policy
  source : Nat → Source
  last : Nat

inductive Phase where
  /-- Make the next frame, or close the queue after the last. -/
  | poised
  /-- Offer a frame, or go to sleep if there is no room. -/
  | reach (f : Frame)
  /-- Awake again: offer the frame. -/
  | wake (f : Frame)
  | finished
  deriving Repr

end Feed

/-- `next` is the number of the next source. -/
structure Feed where
  phase : Feed.Phase := .poised
  next : Nat := 1
  accepted : Nat := 0
  dropped : Nat := 0
  deriving Repr

namespace Feed

/-- A feed, the queue and the events after a turn. -/
abbrev Turned := Feed × Queue Frame × List Event

def finishes (w : Feed) : Bool :=
  match w.phase with
  | .finished => true
  | _ => false

/-- Make the next frame. A source that describes none is skipped. -/
def advance (plan : Plan) (w : Feed) : Feed × List Event :=
  match (plan.source w.next).frame? with
  | .ok f => ({ w with phase := .reach f, next := w.next + 1 }, [])
  | .error m => ({ w with next := w.next + 1 }, [.noted (.unreadable m.text)])

/-- What a feed does after a call: a closed queue ends its work. -/
def decided (plan : Plan) (w : Feed) : Admission Frame → Feed
  | .accepted => { w with phase := .poised, accepted := w.accepted + 1 }
  | .refused .full _ => { w with phase := .poised, dropped := w.dropped + 1 }
  | .refused .closed _ => { w with phase := .poised, next := plan.last + 1 }

/-- Offer a frame once. -/
def offer (plan : Plan) (q : Queue Frame) (w : Feed) (f : Frame) : Turned :=
  match plan.policy, q.offer f with
  | .retry _, (.refused .full f, q) =>
    ({ w with phase := .reach f }, q, [.noted (.retrying f.seq)])
  | _, (answer, q) => (w.decided plan answer, q, Producer.report f.seq answer)

/-- Whether an attempt goes to sleep. -/
def sleeps (policy : Policy) (q : Queue Frame) : Bool :=
  match policy with
  | .drop => false
  | .retry _ => q.offerWaits

def turn (plan : Plan) (q : Queue Frame) (w : Feed) : Turned :=
  match w.phase with
  | .poised =>
    if plan.last < w.next then ({ w with phase := .finished }, q.close, [])
    else
      let (w, events) := w.advance plan
      (w, q, events)
  | .reach f =>
    if sleeps plan.policy q then ({ w with phase := .wake f }, q, []) else offer plan q w f
  | .wake f => offer plan q w f
  | .finished => (w, q, [])

end Feed

end SheddingQueue
