import SheddingQueue.Decimal.Binary64

/-!
# The shortest decimal that reads back

Among the decimals that round to a given number, the ones on the coarsest grid of powers of ten
have the fewest digits; of those, the nearest to the number is chosen, and of two equally near
ones the even one. `shortest` finds it by looking at the number's two neighbours on one grid
after another; `Layout` says how the digits are then written.
-/

namespace SheddingQueue

/-- The decimal `digits * 10 ^ exponent`. -/
structure Decimal where
  digits : Nat
  exponent : Int
  deriving DecidableEq, Repr

namespace Binary64

/-- The way from a number to the midpoint below it, in quarters of its last place. It is half as
long at the least significand of a scale, where the numbers below lie closer. -/
def below (x : Binary64) : Nat :=
  if x.significand == Nat.pow 2 52 && x.scale != 0 then 1 else 2

/-- Whether `n / d` times `2 ^ -1074` reads as `x`: it lies between the midpoints to the
neighbours, or on one of them if the significand is even. -/
def readsFrom (x : Binary64) (n d : Nat) : Bool :=
  let place := Nat.pow 2 x.scale
  let least := (4 * x.significand - x.below) * place * d
  let most := (4 * x.significand + 2) * place * d
  if x.significand % 2 == 0 then least ≤ 4 * n && 4 * n ≤ most
  else least < 4 * n && 4 * n < most

/-- The decimals next to a number on the grid of multiples of `10 ^ e`, if one reads as it. -/
def onGrid? (x : Binary64) (e : Int) : Option Decimal :=
  -- a step of the grid is `num / den` times `2 ^ -1074`
  let num := Nat.pow 10 e.toNat * Nat.pow 2 1074
  let den := Nat.pow 10 (-e).toNat
  let low := x.units * den / num
  let high := low + 1
  let lowReads := x.readsFrom (low * num) den
  let highReads := x.readsFrom (high * num) den
  let toLow := x.units * den - low * num
  let toHigh := high * num - x.units * den
  if lowReads && (!highReads || toLow < toHigh || (toLow == toHigh && low % 2 == 0)) then
    some ⟨low, e⟩
  else if highReads then some ⟨high, e⟩
  else none

/-- The shortest decimal for a finite magnitude. Every magnitude has one with seventeen digits, so
the grids searched reach from the largest numbers to below the smallest. -/
def shortest (x : Binary64) : Decimal :=
  if x.isZero then ⟨0, 0⟩
  else ((List.range 660).findSome? fun (k : Nat) => x.onGrid? (310 - (k : Int))).getD ⟨0, 0⟩

end Binary64

/-- How digits are written as a number. Those whose first digit stands for `10 ^ e` with
`leastPlain ≤ e < firstScientific` are written out, with a point and at least one decimal; the
others with an exponent. -/
structure Layout where
  leastPlain : Int
  firstScientific : Int
  /-- What a positive exponent starts with. -/
  positiveMark : String
  deriving DecidableEq, Repr

namespace Layout

/-- Digits written out with a point. -/
def plain (digits : List Char) (exponent : Int) : List Char :=
  if 0 ≤ exponent then
    digits ++ List.replicate exponent.toNat '0' ++ ['.', '0']
  else
    let places := (-exponent).toNat
    let padded := List.replicate (places + 1 - digits.length) '0' ++ digits
    let whole := padded.length - places
    padded.take whole ++ '.' :: padded.drop whole

/-- Digits with a point after the first, and an exponent. -/
def scientific (l : Layout) (digits : List Char) (first : Int) : List Char :=
  let mantissa := match digits with
    | [] => []
    | [d] => [d]
    | d :: ds => d :: '.' :: ds
  let mark := if 0 ≤ first then l.positiveMark else "-"
  mantissa ++ 'e' :: mark.toList ++ Nat.toDigits 10 first.natAbs

def write (l : Layout) (d : Decimal) : List Char :=
  let digits := Nat.toDigits 10 d.digits
  let first := d.exponent + digits.length - 1
  if l.leastPlain ≤ first ∧ first < l.firstScientific then plain digits d.exponent
  else l.scientific digits first

/-- A finite number, its sign first. -/
def text (l : Layout) (x : Binary64) : String :=
  String.ofList ((if x.isNegative then ['-'] else []) ++ l.write x.shortest)

end Layout

end SheddingQueue
