import SheddingQueue.Journal

/-!
# Producers

A producer hands frames to the queue. `Producer.enqueue` follows the policy: under `drop` it makes
one attempt; under `retry` it makes attempts, each of which waits once for room, until one is
accepted or finds the queue closed. What the others do meanwhile is given as a list, one entry for
each attempt; nobody disturbs an attempt beyond the list, and a call that would have to wait there
has not returned.
-/

namespace SheddingQueue.Producer

/-- What others do to the queue while nobody holds it. -/
abbrev Meanwhile := Queue Frame → Queue Frame

/-- What others do around one attempt. -/
structure Others where
  /-- Before the attempt looks at the queue. -/
  before : Meanwhile := id
  /-- While it waits for room. -/
  during : Meanwhile := id

structure Result where
  answer : Admission Frame
  queue : Queue Frame
  events : List Event
  deriving Repr

/-- What is reported at the end of an attempt that decides a call. -/
def report (seq : Option UInt64) : Admission Frame → List Event
  | .accepted => [.counted .enqueued, .noted (.enqueued seq)]
  | .refused .full _ => [.counted .dropped, .noted (.dropped seq)]
  | .refused .closed _ => [.noted (.rejected seq)]

def decide (seq : Option UInt64) (attempt : Admission Frame × Queue Frame) : Result :=
  ⟨attempt.1, attempt.2, report seq attempt.1⟩

/-- Attempts until one is not refused as full. A refused frame is what the next attempt offers. -/
def retry (seq : Option UInt64) : List Others → Queue Frame → Frame → Option Result
  | [], q, f => if q.offerWaits then none else some (decide seq (q.offer f))
  | others :: later, q, f =>
    match (others.before q).offerWithin others.during f with
    | (.refused .full f, q) =>
      (retry seq later q f).map fun r => { r with events := .noted (.retrying seq) :: r.events }
    | attempt => some (decide seq attempt)

/-- Hand over a frame as the policy says; none if the call does not return. -/
def enqueue (policy : Policy) (others : List Others) (q : Queue Frame) (f : Frame) :
    Option Result :=
  match policy with
  | .drop => some (decide f.seq (q.offer f))
  | .retry _ => retry f.seq others q f

end SheddingQueue.Producer
