import SheddingQueue.Outcome
import SheddingQueue.Settings

/-!
# The journal

Operations report what they did as a list of events, in order: notices for the log and increments
of counters. A notice says what happened; how it reads is settled here, in one place.
-/

namespace SheddingQueue

inductive Level where
  | debug
  | info
  | warn
  deriving DecidableEq, Repr

def Level.name : Level → String
  | .debug => "DEBUG"
  | .info => "INFO"
  | .warn => "WARN"

/-- Who reports. -/
inductive Reporter where
  | settings
  | producer
  | consumer
  | program
  deriving DecidableEq, Repr

inductive Notice where
  /-- No backlog that a taken frame leaves behind reaches the threshold. -/
  | neverSheds (threshold usable : Nat)
  | enqueued (seq : Option UInt64)
  | dropped (seq : Option UInt64)
  | rejected (seq : Option UInt64)
  | retrying (seq : Option UInt64)
  | shed (seq : Option UInt64) (waiting : Nat)
  | processing (seq : Option UInt64) (waiting : Nat)
  | noImage (seq : Option UInt64)
  | renderFailed (seq : Option UInt64) (fault : RenderFault)
  | started (capacity threshold : Nat)
  | stopped (tally : Tally)
  /-- The counters can be read at an address. -/
  | listening (address : String)
  | ready (capacity threshold : Nat) (policy : Policy)
  /-- A message was skipped. -/
  | unreadable (reason : String)
  | complete (published accepted : Nat) (tally : Tally)
  deriving DecidableEq, Repr

namespace Notice

def level : Notice → Level
  | .neverSheds .. | .dropped _ | .renderFailed .. | .unreadable _ => .warn
  | .retrying _ | .shed .. | .started .. | .stopped _ | .listening _ | .ready ..
  | .complete .. => .info
  | .enqueued _ | .rejected _ | .processing .. | .noImage _ => .debug

def reporter : Notice → Reporter
  | .neverSheds .. => .settings
  | .enqueued _ | .dropped _ | .rejected _ | .retrying _ => .producer
  | .shed .. | .processing .. | .noImage _ | .renderFailed .. | .started .. | .stopped _ =>
    .consumer
  | .listening _ | .ready .. | .unreadable _ | .complete .. => .program

def text : Notice → String
  | .neverSheds .. => "shedding threshold can never be reached; no frames will be shed"
  | .enqueued _ => "frame enqueued"
  | .dropped _ => "frame queue full; dropping frame"
  | .rejected _ => "frame queue closed; frame rejected"
  | .retrying _ => "frame queue full; waiting to enqueue"
  | .shed .. => "skip process"
  | .processing .. => "process message"
  | .noImage _ => "no frame payload; nothing to render"
  | .renderFailed .. => "render failed; frame skipped"
  | .started .. => "frame consumer started"
  | .stopped _ => "frame consumer stopped"
  | .listening _ => "metrics exporter listening"
  | .ready .. => "frame queue ready"
  | .unreadable _ => "unable to parse message"
  | .complete .. => "run complete"

/-- A sequence number that may be missing. -/
def seqText : Option UInt64 → String
  | some n => "Some(" ++ toString n.toNat ++ ")"
  | none => "None"

def seqField (seq : Option UInt64) : String × String := ("sequence_id", seqText seq)

def tallyFields (t : Tally) : List (String × String) :=
  [("rendered", toString t.rendered), ("shed", toString t.shed),
    ("skipped", toString t.noImage), ("failed", toString t.failed)]

/-- The names and values that go with a notice. -/
def fields : Notice → List (String × String)
  | .neverSheds threshold usable =>
    [("threshold", toString threshold), ("usable", toString usable)]
  | .enqueued seq | .dropped seq | .rejected seq | .retrying seq | .noImage seq => [seqField seq]
  | .shed seq waiting | .processing seq waiting =>
    [seqField seq, ("occupancy", toString waiting)]
  | .renderFailed seq fault => [seqField seq, ("error", fault.message)]
  | .started capacity threshold =>
    [("capacity", toString capacity), ("threshold", toString threshold)]
  | .stopped t => tallyFields t
  | .listening address => [("addr", address)]
  | .ready capacity threshold policy =>
    [("capacity", toString capacity), ("threshold", toString threshold),
      ("backpressure", policy.text)]
  | .unreadable reason => [("error", reason)]
  | .complete published accepted t =>
    [("published", toString published), ("accepted", toString accepted)] ++ tallyFields t

end Notice

/-- Text and fields of a record, with a space before each field. -/
def recordText (text : String) (fields : List (String × String)) : String :=
  text ++ String.join (fields.map fun f => " " ++ f.1 ++ "=" ++ f.2)

/-- The log record of a notice. -/
def Notice.line (n : Notice) : String := n.level.name ++ " " ++ recordText n.text n.fields

/-- Where a reporter speaks from, as the program's log shows it. -/
def Reporter.target : Reporter → String
  | .settings => "frameshed::queue::builder"
  | .producer => "frameshed::queue::handle"
  | .consumer => "frameshed::consumer"
  | .program => "frameshed"

/-- The record of a notice in the program's log. -/
def Notice.targetLine (n : Notice) : String :=
  n.level.name ++ " " ++ n.reporter.target ++ ": " ++ recordText n.text n.fields

inductive Counter where
  | enqueued
  | dropped
  | shed
  | rendered
  | renderErrors
  deriving DecidableEq, Repr

def Counter.all : List Counter := [.enqueued, .dropped, .shed, .rendered, .renderErrors]

/-- The names under which the counters are published. -/
def Counter.name : Counter → String
  | .enqueued => "frameshed_frames_enqueued_total"
  | .dropped => "frameshed_frames_dropped_total"
  | .shed => "frameshed_frames_shed_total"
  | .rendered => "frameshed_frames_rendered_total"
  | .renderErrors => "frameshed_render_errors_total"

inductive Event where
  | noted (n : Notice)
  | counted (c : Counter)
  deriving DecidableEq, Repr

namespace Event

def notice? : Event → Option Notice
  | .noted n => some n
  | .counted _ => none

end Event

/-- The notices among events, in order. -/
def notices (events : List Event) : List Notice := events.filterMap Event.notice?

/-- How often a counter was incremented. -/
def increments (c : Counter) (events : List Event) : Nat := events.count (.counted c)

@[simp] theorem notices_append (es fs : List Event) :
    notices (es ++ fs) = notices es ++ notices fs := List.filterMap_append

@[simp] theorem increments_noted (c : Counter) (n : Notice) (es : List Event) :
    increments c (.noted n :: es) = increments c es := List.count_cons_of_ne (by simp)

@[simp] theorem increments_append (c : Counter) (es fs : List Event) :
    increments c (es ++ fs) = increments c es + increments c fs := List.count_append

end SheddingQueue
