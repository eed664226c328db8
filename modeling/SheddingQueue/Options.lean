import SheddingQueue.Options.SocketAddress
import SheddingQueue.Settings
import SheddingQueue.Text.Terminal

/-!
# Command line options

Every option has a long name and takes one value, written `--name value` or `--name=value`, and
may be given once. `Options.parse` reads the arguments from the left. A value that stands in an
argument of its own is read only when the next option is met, or at the end, so that an argument
that nobody knows is reported before it.
-/

namespace SheddingQueue

/-- What a producer does with a full queue. -/
inductive Mode where
  | drop
  | retry
  deriving DecidableEq, Repr

structure Options where
  capacity : Nat := 50
  threshold : Threshold := .half
  pollMs : Nat := 10
  mode : Mode := .drop
  retryMs : Nat := 100
  frames : Nat := 200
  feedMs : Nat := 5
  renderMs : Nat := 20
  metrics : Option SocketAddress := none
  deriving DecidableEq, Repr

namespace Options

/-- The options that take a value. -/
inductive Name where
  | capacity
  | threshold
  | poll
  | mode
  | retry
  | frames
  | feed
  | render
  | metrics
  deriving DecidableEq, Repr

namespace Name

def all : List Name :=
  [.capacity, .threshold, .poll, .mode, .retry, .frames, .feed, .render, .metrics]

def text : Name → String
  | .capacity => "capacity"
  | .threshold => "threshold"
  | .poll => "poll-interval-ms"
  | .mode => "backpressure"
  | .retry => "retry-interval-ms"
  | .frames => "frames"
  | .feed => "feed-interval-ms"
  | .render => "render-cost-ms"
  | .metrics => "metrics-listen"

/-- What a value is called: the name in capitals. -/
def valueName (n : Name) : String :=
  String.ofList (n.text.toList.map fun c => if c = '-' then '_' else c.toUpper)

/-- An option with its value, as messages show it. -/
def usage (n : Name) : String := "--" ++ n.text ++ " <" ++ n.valueName ++ ">"

def ofText? (s : String) : Option Name := all.find? fun n => n.text == s

end Name

/-- Why a value was not accepted. -/
inductive ValueFault where
  | count (f : Count.Fault)
  | threshold (f : Count.Fault)
  | address
  deriving DecidableEq, Repr

def ValueFault.message : ValueFault → String
  | .count f => f.message
  | .threshold f => "expected a frame count or `half`: " ++ f.message
  | .address => "invalid socket address syntax"

/-- The flags that take no value. -/
inductive Flag where
  | help
  | version
  deriving DecidableEq, Repr

def Flag.text : Flag → String
  | .help => "help"
  | .version => "version"

/-- Why there are no options. -/
inductive Stop where
  | asked (f : Flag)
  | unexpected (argument : String)
  | badValue (n : Name) (value : String) (fault : ValueFault)
  | noSuchMode (value : String)
  | noValue (n : Name)
  | repeated (n : Name)
  | flagValue (f : Flag) (value : String)
  deriving DecidableEq, Repr

namespace Stop

/-- A message. `shown` is how it shows what was typed. -/
def text (shown : String → String) : Stop → String
  | .asked .help => "Bounded frame queue with load shedding"
  | .asked .version => "frameshed 0.1.0"
  | .unexpected argument => "error: unexpected argument '" ++ shown argument ++ "' found"
  | .badValue n value fault =>
    "error: invalid value '" ++ shown value ++ "' for '" ++ n.usage ++ "': " ++ fault.message
  | .noSuchMode value =>
    "error: invalid value '" ++ shown value ++ "' for '" ++ Name.mode.usage ++ "'"
  | .noValue n => "error: a value is required for '" ++ n.usage ++ "' but none was supplied"
  | .repeated n => "error: the argument '" ++ n.usage ++ "' cannot be used multiple times"
  | .flagValue f value =>
    "error: unexpected value '" ++ shown value ++ "' for '--" ++ f.text
      ++ "' found; no more were expected"

/-- The message as a text of its own. -/
def message (s : Stop) : String := s.text (Text.withoutControls .ends)

/-- The message as the program writes it out. -/
def complaint (s : Stop) : String := s.text (Text.withoutControls .suspends)

/-- To have asked for something is no failure. -/
def exitCode : Stop → Nat
  | .asked _ => 0
  | _ => 2

end Stop

/-- A number of frames, or `half` in any case. -/
def readThreshold (s : String) : Except Count.Fault Threshold :=
  if s.toList.map Char.toLower = ['h', 'a', 'l', 'f'] then .ok .half
  else (Count.read s).map .fixed

def readCount (n : Name) (s : String) : Except Stop Nat :=
  (Count.read s).mapError fun f => .badValue n s (.count f)

/-- An empty mode counts as none. -/
def readMode (s : String) : Except Stop Mode :=
  if s = "drop" then .ok .drop
  else if s = "retry" then .ok .retry
  else if s = "" then .error (.noValue .mode)
  else .error (.noSuchMode s)

/-- Give an option its value. -/
def set (o : Options) (n : Name) (s : String) : Except Stop Options :=
  match n with
  | .capacity => (readCount n s).map fun v => { o with capacity := v }
  | .threshold =>
    match readThreshold s with
    | .ok t => .ok { o with threshold := t }
    | .error f => .error (.badValue n s (.threshold f))
  | .poll => (readCount n s).map fun v => { o with pollMs := v }
  | .mode => (readMode s).map fun m => { o with mode := m }
  | .retry => (readCount n s).map fun v => { o with retryMs := v }
  | .frames => (readCount n s).map fun v => { o with frames := v }
  | .feed => (readCount n s).map fun v => { o with feedMs := v }
  | .render => (readCount n s).map fun v => { o with renderMs := v }
  | .metrics =>
    match SocketAddress.read? s with
    | some a => .ok { o with metrics := some a }
    | none => .error (.badValue n s .address)

/-- The form of an argument. -/
inductive Argument where
  /-- Two dashes: no option comes after them. -/
  | divider
  | long (name : String) (value : Option String)
  /-- A dash and letters, of which only the first matters: it stops the reading. -/
  | short (letter : Char)
  | plain

/-- What follows two dashes, cut at the first equals sign. -/
def longArgument (cs : List Char) : Argument :=
  let name := String.ofList (cs.takeWhile (· != '='))
  match cs.dropWhile (· != '=') with
  | [] => .long name none
  | _ :: value => .long name (some (String.ofList value))

def Argument.ofText (s : String) : Argument :=
  match s.toList with
  | ['-', '-'] => .divider
  | '-' :: '-' :: cs => longArgument cs
  | '-' :: c :: _ => .short c
  | _ => .plain

def flag? (s : String) : Option Flag := [Flag.help, .version].find? fun f => f.text == s

/-- What has been read. -/
structure Progress where
  options : Options := {}
  /-- The options that have their value. -/
  given : List Name := []
  /-- An option that was named, and its value if that has been met. -/
  pending : Option (Name × Option String) := none

namespace Progress

def assign (p : Progress) (n : Name) (value : String) : Except Stop Progress :=
  if n ∈ p.given then .error (.repeated n)
  else (p.options.set n value).map fun o => ⟨o, n :: p.given, none⟩

/-- Read the value that is pending. -/
def settle (p : Progress) : Except Stop Progress :=
  match p.pending with
  | none => .ok p
  | some (n, none) => .error (.noValue n)
  | some (n, some value) => p.assign n value

/-- Something was asked for. -/
def stopAt (p : Progress) (f : Flag) : Except Stop Progress := do
  let _ ← p.settle
  .error (.asked f)

def long (p : Progress) (name : String) (value : Option String) : Except Stop Progress :=
  match flag? name, value with
  | some f, some v => .error (.flagValue f v)
  | some f, none => p.stopAt f
  | none, value =>
    match Name.ofText? name, value with
    | none, _ => .error (.unexpected ("--" ++ name))
    | some n, some v => p.settle.bind fun p => p.assign n v
    | some n, none => p.settle.map fun p => { p with pending := some (n, none) }

def short (p : Progress) (letter : Char) : Except Stop Progress :=
  if letter = 'h' then p.stopAt .help
  else if letter = 'V' then p.stopAt .version
  else .error (.unexpected (String.ofList ['-', letter]))

def plain (p : Progress) (argument : String) : Except Stop Progress :=
  match p.pending with
  | some (n, none) => .ok { p with pending := some (n, some argument) }
  | _ => .error (.unexpected argument)

def readAll (p : Progress) : List String → Except Stop Progress
  | [] => p.settle
  | argument :: rest =>
    match Argument.ofText argument with
    | .divider =>
      match rest with
      | [] => p.settle
      | extra :: _ => .error (.unexpected extra)
    | .long name value => (p.long name value).bind fun p => p.readAll rest
    | .short letter => (p.short letter).bind fun p => p.readAll rest
    | .plain => (p.plain argument).bind fun p => p.readAll rest

end Progress

/-- The options that arguments give, or what stopped the reading. -/
def parse (arguments : List String) : Except Stop Options :=
  (Progress.readAll {} arguments).map Progress.options

/-- How the options settle the queue. -/
def policy (o : Options) : Policy :=
  match o.mode with
  | .drop => .drop
  | .retry => .retry (.ofMilliseconds o.retryMs)

def settings (o : Options) : Settings :=
  ⟨o.capacity, o.policy, o.threshold, .ofMilliseconds o.pollMs⟩

end Options

end SheddingQueue
