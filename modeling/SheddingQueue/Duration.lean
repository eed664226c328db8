/-!
# Durations

A span of time is a count of nanoseconds, so two durations are equal exactly when they last
equally long. `Duration.text` writes one in the largest unit that is not zero, with an exact
fraction.
-/

namespace SheddingQueue

/-- A span of time with nanosecond resolution. -/
structure Duration where
  nanoseconds : Nat
  deriving DecidableEq, Repr

namespace Duration

def ofParts (seconds nanoseconds : Nat) : Duration := ⟨seconds * 1000000000 + nanoseconds⟩

def ofMilliseconds (ms : Nat) : Duration := ⟨ms * 1000000⟩

/-- Whole seconds. -/
def seconds (d : Duration) : Nat := d.nanoseconds / 1000000000

/-- What is left of a duration after its whole seconds. -/
def subsecond (d : Duration) : Nat := d.nanoseconds % 1000000000

def isZero (d : Duration) : Bool := d.nanoseconds == 0

/-- Decimal places of `n / 10 ^ width` after a point; nothing when there are none. -/
def fraction (width n : Nat) : List Char :=
  let digits := Nat.toDigits 10 n
  let padded := List.replicate (width - digits.length) '0' ++ digits
  match (padded.reverse.dropWhile (· == '0')).reverse with
  | [] => []
  | kept => '.' :: kept

/-- `n / 10 ^ width` exactly, followed by the name of the unit. -/
def inUnit (width n : Nat) (name : String) : String :=
  toString (n / Nat.pow 10 width) ++ String.ofList (fraction width (n % Nat.pow 10 width)) ++ name

/-- The largest of the units s, ms, µs and ns in which the duration is at least one. -/
def text (d : Duration) : String :=
  if d.nanoseconds ≥ 1000000000 then inUnit 9 d.nanoseconds "s"
  else if d.nanoseconds ≥ 1000000 then inUnit 6 d.nanoseconds "ms"
  else if d.nanoseconds ≥ 1000 then inUnit 3 d.nanoseconds "µs"
  else inUnit 0 d.nanoseconds "ns"

end Duration

end SheddingQueue
