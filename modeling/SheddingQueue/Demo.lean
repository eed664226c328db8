import SheddingQueue.Build
import SheddingQueue.Feed
import SheddingQueue.Options
import SheddingQueue.Worker

/-!
# The demonstration

A feed makes messages and a worker renders them, both on one queue, so that the effect of the
settings shows in the log. `Demo.play` lets the two threads take turns in a given order;
`Demo.program` is all of it, from its arguments to what it prints.

Nobody interrupts the program, so its feed need not look for a request to stop. Its log leaves out
the details, and with them the record that its renderer makes of each frame it has rendered.
-/

namespace SheddingQueue.Demo

/-! ## Messages -/

/-- What the encoded images of the demonstration start with. -/
def pictureStart : String := "/9j/"

/-- Every twentieth message has no image, and every seventeenth one that is no picture. -/
def imageText (n : Nat) : Option String :=
  if n % 20 = 0 then none
  else if n % 17 = 0 then some "AAAA"
  else some (pictureStart ++ String.ofList (List.replicate 1024 'A'))

/-- The message with number `n`. -/
def message (n : Nat) : String :=
  "\x7b\"seqId\":" ++ toString n ++ ",\"streamId\":0"
    ++ (imageText n).elim "" (fun image => ",\"frameData\":\"" ++ image ++ "\"") ++ "\x7d"

def source (n : Nat) : Source := .message (Utf8.encode (message n))

/-- Accepts whatever starts like a picture. -/
def verdict : Verdict := fun _ image =>
  if (Utf8.encode pictureStart).isPrefixOf image then .ok ()
  else .error (.decode "payload is not a base64 JPEG image")

/-! ## Two threads -/

inductive Thread where
  | feed
  | worker
  deriving DecidableEq, Repr

/-- What does not change while the threads are at work. -/
structure Stage where
  plan : Feed.Plan
  threshold : Nat
  verdict : Verdict

structure State where
  queue : Queue Frame
  feed : Feed := {}
  worker : Worker := {}
  /-- Whether the worker has been asked to stop. -/
  cancelled : Bool := false
  /-- What was reported, the last first. -/
  journal : List Event := []
  deriving Repr

namespace State

/-- Add events in the order in which they happened. -/
def report (s : State) (events : List Event) : State :=
  { s with journal := events.reverse ++ s.journal }

/-- Let one thread have a turn. -/
def turn (stage : Stage) (s : State) : Thread → State
  | .feed =>
    let (feed, queue, events) := s.feed.turn stage.plan s.queue
    { s with feed := feed, queue := queue }.report events
  | .worker =>
    let (worker, queue, events) :=
      s.worker.turn stage.threshold stage.verdict s.cancelled s.queue
    { s with worker := worker, queue := queue }.report events

def finishes (s : State) : Bool := s.feed.finishes && s.worker.finishes

def events (s : State) : List Event := s.journal.reverse

end State

/-- Let the threads take turns in the given order. -/
def play (stage : Stage) (s : State) (order : List Thread) : State :=
  order.foldl (State.turn stage) s

/-- Turns that suffice for the feed to hand over a frame and the worker to handle it. -/
def round : List Thread :=
  List.replicate 2 .feed ++ List.replicate 6 .worker

/-- An order in which both threads come to an end: a round for each message, and one more for
closing the queue. -/
def rounds (messages : Nat) : List Thread := (List.replicate (messages + 2) round).flatten

/-! ## The program -/

/-- A line of output. Records of the log are told from plain text, because a log may put the time
in front of them. -/
inductive Line where
  | record (text : String)
  | plain (text : String)
  deriving DecidableEq, Repr

structure Output where
  lines : List Line
  /-- What goes to the error output. -/
  complaint : Option String
  exitCode : Nat
  deriving DecidableEq, Repr

/-- The log has everything but the details. -/
def records (events : List Event) : List Line :=
  ((notices events).filter fun n => n.level != .debug).map fun n => .record n.targetLine

/-- What the program reports about the address at which its counters can be read. -/
def listening (o : Options) : List Event :=
  o.metrics.toList.map fun a => .noted (.listening a.text)

/-- The events of a run on a queue. -/
def runOn (o : Options) (b : Built Frame) : List Event :=
  let stage : Stage := ⟨⟨b.policy, source, o.frames⟩, b.watch.threshold, verdict⟩
  let s := play stage { queue := b.queue } (rounds o.frames)
  .noted (.ready b.capacity b.watch.threshold b.policy)
    :: .noted (.started b.capacity b.watch.threshold)
    :: s.events
    ++ [.noted (.complete o.frames s.feed.accepted s.worker.tally)]

def run (o : Options) : Output :=
  match o.settings.build Frame with
  | .error e => ⟨records (listening o), some ("Error: " ++ e.text), 1⟩
  | .ok b => ⟨records (listening o ++ b.events ++ runOn o b), none, 0⟩

/-- The lines of the help. -/
def help : List String :=
  [Options.Stop.message (.asked .help), "", "Usage: frameshed [OPTIONS]", "", "Options:"]
    ++ Options.Name.all.map (fun n => "      " ++ n.usage)
    ++ ["  -h, --help", "  -V, --version"]

def stopped (stop : Options.Stop) : Output :=
  match stop with
  | .asked .help => ⟨help.map .plain, none, stop.exitCode⟩
  | .asked .version => ⟨[.plain stop.message], none, stop.exitCode⟩
  | stop => ⟨[], some stop.complaint, stop.exitCode⟩

/-- The program, from its arguments to its output. -/
def program (arguments : List String) : Output :=
  match Options.parse arguments with
  | .ok o => run o
  | .error stop => stopped stop

end SheddingQueue.Demo
