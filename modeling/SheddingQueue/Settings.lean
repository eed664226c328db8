import SheddingQueue.Duration
import SheddingQueue.Queue

/-!
# Settings

What can be chosen when a queue is made: how many slots it has, what a producer does when all of
them are taken, from which backlog on frames are shed, and how long the consumer sleeps at most.
`Settings.check` accepts a choice or names the first thing wrong with it.
-/

namespace SheddingQueue

/-- What a producer does with a frame that finds no room. -/
inductive Policy where
  /-- Give the frame up at once. -/
  | drop
  /-- Wait for room, looking again at least every `interval`. -/
  | retry (interval : Duration)
  deriving DecidableEq, Repr

/-- A policy as the log shows it. -/
def Policy.text : Policy → String
  | .drop => "DropOnFull"
  | .retry interval => "RetryOnFull \x7b retry_interval: " ++ interval.text ++ " \x7d"

/-- The backlog from which frames are shed. -/
inductive Threshold where
  | fixed (frames : Nat)
  /-- Half of the slots, rounded up. -/
  | half
  deriving DecidableEq, Repr

/-- The threshold in frames, for a queue of `capacity` slots. -/
def Threshold.resolve (capacity : Nat) : Threshold → Nat
  | .fixed n => n
  | .half => (capacity + 1) / 2

/-- The fewest slots: one that can be used and the gap. -/
def minCapacity : Nat := 2

/-- The most slots. -/
def maxCapacity : Nat := 10000

def defaultPoll : Duration := .ofMilliseconds 10

def defaultRetryInterval : Duration := .ofMilliseconds 100

/-- Retrying at the usual interval. -/
def Policy.patient : Policy := .retry defaultRetryInterval

structure Settings where
  capacity : Nat := 50
  policy : Policy := .drop
  threshold : Threshold := .half
  poll : Duration := defaultPoll
  deriving DecidableEq, Repr

/-- One choice. -/
inductive Setting where
  | capacity (slots : Nat)
  | policy (p : Policy)
  | threshold (t : Threshold)
  | poll (d : Duration)
  deriving DecidableEq, Repr

/-- What the consumer works with: the threshold in frames and the longest sleep. -/
structure Watch where
  threshold : Nat
  poll : Duration
  deriving DecidableEq, Repr

/-- Why settings were rejected. -/
inductive SettingsError where
  | capacity (slots : Nat)
  | threshold (frames : Nat)
  | poll (d : Duration)
  | retryInterval (d : Duration)
  deriving DecidableEq, Repr

def SettingsError.message : SettingsError → String
  | .capacity n => "invalid capacity " ++ toString n ++ "; must be between "
      ++ toString minCapacity ++ " and " ++ toString maxCapacity
  | .threshold n => "invalid shedding threshold " ++ toString n ++ "; must be >= 1"
  | .poll d => "invalid poll interval " ++ d.text ++ "; must be non-zero"
  | .retryInterval d => "invalid retry interval " ++ d.text ++ "; must be non-zero"

/-- A rejection as a failing program shows it. -/
def SettingsError.text : SettingsError → String
  | .capacity n => "InvalidCapacity(" ++ toString n ++ ")"
  | .threshold n => "InvalidThreshold(" ++ toString n ++ ")"
  | .poll d => "InvalidPollInterval(" ++ d.text ++ ")"
  | .retryInterval d => "InvalidRetryInterval(" ++ d.text ++ ")"

namespace Settings

/-- Choose one thing, leaving the others. -/
def choose (s : Settings) : Setting → Settings
  | .capacity n => { s with capacity := n }
  | .policy p => { s with policy := p }
  | .threshold t => { s with threshold := t }
  | .poll d => { s with poll := d }

/-- The usual settings with some choices made, a later one replacing an earlier one. -/
def ofList (choices : List Setting) : Settings := choices.foldl choose {}

/-- The first fault in the settings, in the order capacity, threshold, poll, retry interval. -/
def fault? (s : Settings) : Option SettingsError :=
  if s.capacity < minCapacity ∨ maxCapacity < s.capacity then some (.capacity s.capacity)
  else if s.threshold = .fixed 0 then some (.threshold 0)
  else if s.poll.isZero then some (.poll s.poll)
  else match s.policy with
    | .retry d => if d.isZero then some (.retryInterval d) else none
    | .drop => none

/-- The threshold in frames. -/
def sheddingAt (s : Settings) : Nat := s.threshold.resolve s.capacity

/-- Most frames that the queue can hold. -/
def usable (s : Settings) : Nat := s.capacity - 1

/-- Whether the threshold lies above every backlog that a taken frame can leave behind: at most
two fewer than there are slots. -/
def neverSheds (s : Settings) : Bool := s.usable ≤ s.sheddingAt

def watch (s : Settings) : Watch := ⟨s.sheddingAt, s.poll⟩

end Settings

end SheddingQueue
