import SheddingQueue.Build
import SheddingQueue.Consumer
import SheddingQueue.Frame.Message
import SheddingQueue.Producer

/-!
# Sessions

A session is a queue in use: its consumer, any number of producers, and a list of operations that
are done one after another. `Session.perform` does one of them and says what it answered and what
it reported. Operations that block tell what the other side does meanwhile.
-/

namespace SheddingQueue

structure Session where
  queue : Queue Frame
  capacity : Nat
  policy : Policy
  watch : Watch
  /-- Whether the consumer still has the queue. It cannot get it back. -/
  held : Bool := true
  /-- For each producer made so far whether it is still there. -/
  producers : List Bool := [true]
  deriving Repr

/-- What frees an enqueue that is waiting for room. -/
inductive Release where
  | take
  | closeQueue
  | closeProducer
  | dropQueue
  deriving DecidableEq, Repr

/-- When a run is stopped from outside. -/
inductive StopSignal where
  | never
  | atOnce
  | whenEmpty
  deriving DecidableEq, Repr

/-- An operation. Producers go by their number. -/
inductive Operation where
  | offer (producer : Nat) (source : Source)
  | enqueue (producer : Nat) (source : Source)
  /-- Offer `count` frames numbered from `first`, until one is refused. -/
  | fill (producer : Nat) (first count : Nat)
  | take
  | takeWithin
  /-- Take at most `most` frames. -/
  | drain (most : Nat)
  | inspect (producer : Nat)
  | closeQueue
  | dropQueue
  | closeProducer (producer : Nat)
  | dropProducer (producer : Nat)
  | cloneProducer (producer : Nat)
  | newProducer
  | step (renderer : Renderer)
  /-- Handle a frame that has not been in the queue. -/
  | handle (source : Source) (renderer : Renderer)
  /-- A run of at most `bound` steps more than there are frames in the queue. -/
  | run (renderer : Renderer) (stop : StopSignal) (bound : Nat)
  /-- Enqueue into a full queue, which `release` frees after the first attempt, or after the
  second if the first is seen to wait in vain. -/
  | blockedEnqueue (producer : Nat) (source : Source) (seen : Bool) (release : Release)
  /-- Wait for a frame that a producer enqueues, or for the queue to be closed. -/
  | waitingTake (producer : Nat) (source : Option Source)

/-- What the queue shows of itself. -/
structure QueueView where
  count : Nat
  isEmpty : Bool
  isClosed : Bool
  capacity : Nat
  usable : Nat
  watch : Watch
  deriving Repr

/-- What a producer shows of its queue. -/
structure ProducerView where
  count : Nat
  isEmpty : Bool
  isClosed : Bool
  capacity : Nat
  policy : Policy
  deriving Repr

inductive Reply where
  | done
  | noQueue
  | noProducer
  | malformed (m : Malformed)
  | refused (reason : Refusal) (f : Frame)
  | filled (accepted : Nat) (refused : Option (Refusal × Frame))
  | took (f : Option Frame)
  | drained (seqs : List (Option UInt64))
  | views (queue : Option QueueView) (producer : Option ProducerView)
  | producer (number : Nat)
  | outcome (o : Outcome) (calls : List Call)
  | tally (t : Tally) (calls : List Call)
  | released (took : Option Frame) (answer : Admission Frame)
  | handedOver (closed : Bool) (f : Option Frame)
  /-- The operation does not return. -/
  | blocked

namespace Session

/-- A reply, the session after it, and what was reported. -/
abbrev Performed := Reply × Session × List Event

def ofBuilt (b : Built Frame) : Session :=
  { queue := b.queue, capacity := b.capacity, policy := b.policy, watch := b.watch }

def hasProducer (s : Session) (producer : Nat) : Bool := (s.producers[producer]?).getD false

/-- The frame with a sequence number and the first bytes of a picture. -/
def specimen (n : Nat) : Frame :=
  (Frame.numbered (UInt64.ofNat n)).withImage [0xff, 0xd8, 0xff]

def answered : Admission Frame → Reply
  | .accepted => .done
  | .refused reason f => .refused reason f

/-- Offer specimens one after another until one is refused. -/
def fillFrom (q : Queue Frame) (n accepted : Nat) :
    (count : Nat) → Nat × Option (Refusal × Frame) × Queue Frame
  | 0 => (accepted, none, q)
  | count + 1 =>
    match q.offer (specimen n) with
    | (.accepted, q) => fillFrom q (n + 1) (accepted + 1) count
    | (.refused reason f, q) => (accepted, some (reason, f), q)

/-- Take frames until there are none, at most a given number. -/
def drainFrom (q : Queue Frame) : (most : Nat) → List Frame × Queue Frame
  | 0 => ([], q)
  | most + 1 =>
    match q.take with
    | (none, q) => ([], q)
    | (some f, q) =>
      let (fs, q) := drainFrom q most
      (f :: fs, q)

def queueView (s : Session) : QueueView :=
  ⟨s.queue.count, s.queue.isEmpty, s.queue.closed, s.capacity, s.capacity - 1, s.watch⟩

def producerView (s : Session) : ProducerView :=
  ⟨s.queue.count, s.queue.isEmpty, s.queue.closed, s.capacity, s.policy⟩

/-- Do something that needs a producer. -/
def withProducer (s : Session) (producer : Nat) (act : Performed) : Performed :=
  if s.hasProducer producer then act else (.noProducer, s, [])

/-- Do something that needs the queue. -/
def withQueue (s : Session) (act : Performed) : Performed :=
  if s.held then act else (.noQueue, s, [])

/-- Do something with a frame. -/
def withFrame (s : Session) (source : Source) (act : Frame → Performed) : Performed :=
  match source.frame? with
  | .ok f => act f
  | .error m => (.malformed m, s, [])

def enqueue (s : Session) (others : List Producer.Others) (f : Frame)
    (reply : Admission Frame → Reply) : Performed :=
  match Producer.enqueue s.policy others s.queue f with
  | some r => (reply r.answer, { s with queue := r.queue }, r.events)
  | none => (.blocked, s, [])

/-- What a release does to the queue. -/
def Release.act : Release → Producer.Meanwhile
  | .take => fun q => q.take.2
  | .closeQueue | .closeProducer | .dropQueue => Queue.close

/-- The frame that a release takes out. -/
def Release.frame? (q : Queue Frame) : Release → Option Frame
  | .take => q.take.1
  | _ => none

/-- The outcome of a release after an enqueue that has returned. -/
def releaseAfter (release : Release) : Performed → Performed
  | (.released _ answer, s, events) =>
    (.released (Release.frame? s.queue release) answer,
      { s with queue := Release.act release s.queue }, events)
  | performed => performed

/-- Whether a producer with this policy would wait for room. -/
def enqueueWaits (s : Session) : Bool := s.policy != .drop && s.queue.offerWaits

/-- An enqueue that waits is freed by the release. One that need not wait is over before it. -/
def blockedEnqueue (s : Session) (seen : Bool) (release : Release) (f : Frame) : Performed :=
  let freed : Producer.Others := { during := Release.act release }
  let others := if seen then [{}, freed] else [freed]
  let (reply, s', events) :=
    if s.enqueueWaits then s.enqueue others f (.released (Release.frame? s.queue release))
    else releaseAfter release (s.enqueue [] f (.released none))
  (reply, { s' with held := s'.held && release != .dropQueue }, events)

/-- What the other side of a take does, and what it reports: it enqueues a frame, or closes the
queue. -/
def otherSide (policy : Policy) (source : Option Frame) (q : Queue Frame) :
    Option (Queue Frame × List Event) :=
  match source with
  | none => some (q.close, [])
  | some f => (Producer.enqueue policy [] q f).map fun r => (r.queue, r.events)

/-- The other side acts while the take waits, or after a take that need not wait. -/
def waitingTake (s : Session) (source : Option Frame) : Performed :=
  if s.queue.takeWaits then
    match otherSide s.policy source s.queue with
    | none => (.blocked, s, [])
    | some (q, events) =>
      let (f, q) := q.take
      (.handedOver source.isNone f, { s with queue := q }, events)
  else
    let (f, q) := s.queue.take
    match otherSide s.policy source q with
    | none => (.blocked, s, [])
    | some (q, events) => (.handedOver source.isNone f, { s with queue := q }, events)

def consumerState (s : Session) : Consumer.State := { queue := s.queue }

def handled (s : Session) (r : Consumer.Result) : Performed :=
  (.outcome r.outcome r.state.calls, { s with queue := r.state.queue }, r.events)

def StopSignal.halt : StopSignal → Queue Frame → Bool
  | .never => fun _ => false
  | .atOnce => fun _ => true
  | .whenEmpty => Queue.isEmpty

def run (s : Session) (renderer : Renderer) (stop : StopSignal) (bound : Nat) : Performed :=
  match Consumer.run s.capacity s.watch.threshold renderer (StopSignal.halt stop)
      (s.queue.count + bound) s.consumerState with
  | some r => (.tally r.tally r.state.calls, { s with queue := r.state.queue }, r.events)
  | none => (.blocked, s, [])

/-- Do one operation. -/
def perform (s : Session) : Operation → Performed
  | .offer p source => s.withProducer p <| s.withFrame source fun f =>
    let (answer, q) := s.queue.offer f
    (answered answer, { s with queue := q }, [])
  | .enqueue p source => s.withProducer p <| s.withFrame source fun f => s.enqueue [] f answered
  | .fill p first count => s.withProducer p <|
    let (accepted, refused, q) := fillFrom s.queue first 0 count
    (.filled accepted refused, { s with queue := q }, [])
  | .take => s.withQueue <|
    let (f, q) := s.queue.take
    (.took f, { s with queue := q }, [])
  | .takeWithin => s.withQueue <|
    let (f, q) := s.queue.takeWithin id
    (.took f, { s with queue := q }, [])
  | .drain most => s.withQueue <|
    let (fs, q) := drainFrom s.queue most
    (.drained (fs.map Frame.seq), { s with queue := q }, [])
  | .inspect p =>
    let queue := if s.held then some s.queueView else none
    let producer := if s.hasProducer p then some s.producerView else none
    (.views queue producer, s, [])
  | .closeQueue => s.withQueue (.done, { s with queue := s.queue.close }, [])
  | .dropQueue => s.withQueue (.done, { s with queue := s.queue.close, held := false }, [])
  | .closeProducer p => s.withProducer p (.done, { s with queue := s.queue.close }, [])
  | .dropProducer p =>
    s.withProducer p (.done, { s with producers := s.producers.set p false }, [])
  | .cloneProducer p => s.withProducer p
    (.producer s.producers.length, { s with producers := s.producers ++ [true] }, [])
  | .newProducer => s.withQueue
    (.producer s.producers.length, { s with producers := s.producers ++ [true] }, [])
  | .step renderer => s.withQueue <|
    s.handled (Consumer.step s.watch.threshold renderer s.consumerState)
  | .handle source renderer => s.withQueue <| s.withFrame source fun f =>
    s.handled (Consumer.handle s.watch.threshold renderer s.consumerState f)
  | .run renderer stop bound => s.withQueue <| s.run renderer stop bound
  | .blockedEnqueue p source seen release => s.withProducer p <| s.withQueue <|
    s.withFrame source fun f => s.blockedEnqueue seen release f
  | .waitingTake p source => s.withQueue <| s.withProducer p <|
    match source with
    | none => s.waitingTake none
    | some source => s.withFrame source fun f => s.waitingTake (some f)

end Session

end SheddingQueue
