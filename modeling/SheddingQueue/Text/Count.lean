/-!
# Counts

A count is a natural number below `2 ^ 64` in decimal digits, with a plus sign before it if one
likes. `Count.read` reads from the left, so the first thing wrong is what is reported.
-/

namespace SheddingQueue.Count

inductive Fault where
  | empty
  | notDigit
  | tooLarge
  deriving DecidableEq, Repr

def Fault.message : Fault → String
  | .empty => "cannot parse integer from empty string"
  | .notDigit => "invalid digit found in string"
  | .tooLarge => "number too large to fit in target type"

/-- The least number that is too large. -/
def limit : Nat := Nat.pow 2 64

def digit? (c : Char) : Option Nat := if c.isDigit then some (c.toNat - '0'.toNat) else none

/-- Append digits to a number. -/
def readDigits : Nat → List Char → Except Fault Nat
  | n, [] => .ok n
  | n, c :: cs =>
    match digit? c with
    | none => .error .notDigit
    | some d => if n * 10 + d < limit then readDigits (n * 10 + d) cs else .error .tooLarge

def readChars : List Char → Except Fault Nat
  | [] => .error .empty
  | ['+'] => .error .notDigit
  | '+' :: cs => readDigits 0 cs
  | cs => readDigits 0 cs

def read (s : String) : Except Fault Nat := readChars s.toList

end SheddingQueue.Count
