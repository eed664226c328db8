import SheddingQueue.Run
import SheddingQueue.Session

/-!
# The history of a session

Every operation of a session comes down to a few dealings with the queue, one after another: what
was offered and with what answer, and what was found when something was to be taken out. `deals`
lists them for one operation, those of the consumer and of its renderer included; `along` puts
together what the operations of a whole session come to. `Deal.Fits` says which dealings can lead
a queue from one state to another.
-/

namespace SheddingQueue

/-- Something that was done with the queue, and with what result. -/
inductive Deal where
  /-- A producer handed a frame over, as its policy says. -/
  | enqueued (f : Frame) (answer : Admission Frame)
  /-- The consumer looked at the queue. -/
  | looked (found : Option Frame) (outcome : Outcome)
  /-- The consumer was given a frame that had not been in the queue. -/
  | given (outcome : Outcome)
  /-- Somebody used the queue directly, be it the renderer during a call. -/
  | exchanged (e : Exchange)

/-- The counter that goes with an outcome. -/
def Outcome.counter? : Outcome → Option Counter
  | .handled .shed _ _ => some .shed
  | .handled .rendered _ _ => some .rendered
  | .handled .failed _ _ => some .renderErrors
  | .handled .noImage _ _ | .idle => none

namespace Deal

/-- A frame that was offered, with the answer. -/
def offer? : Deal → Option (Frame × Admission Frame)
  | .enqueued f answer | .exchanged (.offered f answer) => some (f, answer)
  | _ => none

/-- What was found when something was to be taken out. -/
def found? : Deal → Option (Option Frame)
  | .looked found _ | .exchanged (.took found) => some found
  | _ => none

/-- The frame that a deal stores. -/
def stored? (d : Deal) : Option Frame :=
  match d.offer? with
  | some (f, .accepted) => some f
  | _ => none

/-- The frame that a deal takes out. -/
def taken? (d : Deal) : Option Frame := d.found?.join

/-- The counter that counts a deal. -/
def counter? : Deal → Option Counter
  | .enqueued _ .accepted => some .enqueued
  | .enqueued _ (.refused .full _) => some .dropped
  | .enqueued _ (.refused .closed _) => none
  | .looked _ outcome | .given outcome => outcome.counter?
  | .exchanged _ => none

/-- Whether a frame was stored by a direct offer. -/
def storesDirectly : Deal → Bool
  | .exchanged (.offered _ .accepted) => true
  | _ => false

/-- Whether a frame was taken out, and not by the consumer. -/
def takesDirectly : Deal → Bool
  | .exchanged (.took (some _)) => true
  | _ => false

/-- Whether the consumer had a frame without an image. -/
def skips : Deal → Bool
  | .looked _ (.handled .noImage _ _) | .given (.handled .noImage _ _) => true
  | _ => false

/-- Whether the consumer had a frame that was not in the queue. -/
def isGiven : Deal → Bool
  | .given _ => true
  | _ => false

/-- Whether a deal can lead from one queue to another. -/
def Fits (q : Queue Frame) (d : Deal) (q' : Queue Frame) : Prop :=
  match d with
  | .enqueued f answer | .exchanged (.offered f answer) => q.offer f = (answer, q')
  | .looked found outcome => q.take = (found, q') ∧ (outcome = .idle ↔ found = none)
  | .given outcome => outcome ≠ .idle ∧ q = q'
  | .exchanged (.took found) => q.take = (found, q')
  | .exchanged .closed => q.close = q'
  | .exchanged .cancelled => q = q'

end Deal

def Call.deals (c : Call) : List Deal := c.exchanges.map .exchanged

namespace Consumer

/-- The deals of a step: the look at the queue comes before the call of the renderer. -/
def deals (threshold : Nat) (renderer : Renderer) (s : State) : List Deal :=
  let r := step threshold renderer s
  .looked (s.queue.takeWithin id).1 r.outcome
    :: (r.state.calls.drop s.calls.length).flatMap Call.deals

/-- The deals of the steps of a run. -/
def dealsWithin (threshold : Nat) (renderer : Renderer) (halt : Queue Frame → Bool) :
    (bound : Nat) → State → List Deal
  | 0, _ => []
  | bound + 1, s =>
    if stops halt s then []
    else deals threshold renderer s
      ++ dealsWithin threshold renderer halt bound (step threshold renderer s).state

end Consumer

/-- The answer that a reply gives to an offer. -/
def Reply.answer? : Reply → Option (Admission Frame)
  | .done => some .accepted
  | .refused reason f => some (.refused reason f)
  | _ => none

/-- Whether an operation is a single call. The others fill or drain the queue, or need two threads
at work. -/
def Operation.isCall : Operation → Bool
  | .fill .. | .drain .. | .blockedEnqueue .. | .waitingTake .. => false
  | _ => true

/-- Whether an operation gives the consumer a frame that has not been in the queue. -/
def Operation.isHandle : Operation → Bool
  | .handle .. => true
  | _ => false

/-- Whether an operation closes the queue. -/
def Operation.closes : Operation → Bool
  | .closeQueue | .dropQueue | .closeProducer _ => true
  | _ => false

namespace Session

/-- The frame of a source with the answer to its offer, if it was offered and answered. -/
def answers (source : Source) (reply : Reply) : List (Frame × Admission Frame) :=
  match source.frame?, reply.answer? with
  | .ok f, some answer => [(f, answer)]
  | _, _ => []

/-- The deals of a single call that was answered with a reply. -/
def dealsFor (s : Session) (op : Operation) (reply : Reply) : List Deal :=
  match op, reply with
  | .offer _ source, reply => (answers source reply).map fun e => .exchanged (.offered e.1 e.2)
  | .enqueue _ source, reply => (answers source reply).map fun e => .enqueued e.1 e.2
  | .take, .took f | .takeWithin, .took f => [.exchanged (.took f)]
  | .closeQueue, .done | .dropQueue, .done | .closeProducer _, .done => [.exchanged .closed]
  | .step renderer, .outcome _ _ =>
    Consumer.deals s.watch.threshold renderer s.consumerState
  | .handle _ _, .outcome o calls => .given o :: calls.flatMap Call.deals
  | .run renderer stop bound, .tally _ _ =>
    Consumer.dealsWithin s.watch.threshold renderer (StopSignal.halt stop) (s.queue.count + bound)
      s.consumerState
  | _, _ => []

def deals (s : Session) (op : Operation) : List Deal := s.dealsFor op (s.perform op).1

/-- The events that an operation reports. -/
def reported (s : Session) (op : Operation) : List Event := (s.perform op).2.2

/-- The session after one operation, and after some. -/
def next (s : Session) (op : Operation) : Session := (s.perform op).2.1

def after (s : Session) (ops : List Operation) : Session := ops.foldl next s

/-- What the operations of a session come to, one after another. -/
def along {α : Type} (f : Session → Operation → List α) : Session → List Operation → List α
  | _, [] => []
  | s, op :: ops => f s op ++ along f (s.next op) ops

end Session

end SheddingQueue
