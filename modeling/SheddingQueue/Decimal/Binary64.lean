/-!
# Double precision numbers

A `Binary64` is its 64 bits: a sign, eleven bits of exponent and 52 of fraction. Arithmetic on
them is exact arithmetic on naturals followed by one rounding to the nearest representable
number, a tie going to the even neighbour.

The finite magnitudes are the multiples of `2 ^ -1074` of the form `significand * 2 ^ scale`,
with a significand below `2 ^ 53`; `units` counts a magnitude in these multiples, and the lower
63 bits of a finite number grow with it. So rounding a quotient finds the scale at which its
significand has 53 bits, rounds there, and adds `scale * 2 ^ 52`; a carry out of the significand
lands in the exponent by itself.
-/

namespace SheddingQueue

structure Binary64 where
  bits : UInt64
  deriving DecidableEq, Repr

namespace Binary64

/-- The 63 bits below the sign. -/
def magnitude (x : Binary64) : Nat := x.bits.toNat % Nat.pow 2 63

def isNegative (x : Binary64) : Bool := x.bits.toNat / Nat.pow 2 63 == 1

/-- The lower 63 bits of infinity: a magnitude is finite exactly below it. -/
def infinity : Nat := 0x7ff * Nat.pow 2 52

def isFinite (x : Binary64) : Bool := x.magnitude < infinity

def isNaN (x : Binary64) : Bool := infinity < x.magnitude

def isZero (x : Binary64) : Bool := x.magnitude == 0

/-- The power of two, counted from `2 ^ -1074`, that the significand is multiplied with. -/
def scale (x : Binary64) : Nat := x.magnitude / Nat.pow 2 52 - 1

/-- The fraction bits with the leading one that only subnormal numbers lack. -/
def significand (x : Binary64) : Nat :=
  let fraction := x.magnitude % Nat.pow 2 52
  if x.magnitude < Nat.pow 2 52 then fraction else fraction + Nat.pow 2 52

/-- A finite magnitude in multiples of `2 ^ -1074`. -/
def units (x : Binary64) : Nat := x.significand * Nat.pow 2 x.scale

def zero : Binary64 := ⟨0⟩

/-- The same magnitude with the sign set or cleared. -/
def withSign (negative : Bool) (x : Binary64) : Binary64 :=
  ⟨UInt64.ofNat (x.magnitude + if negative then Nat.pow 2 63 else 0)⟩

/-- `n / d` to the nearest natural, a tie going to the even one. -/
def nearest (n d : Nat) : Nat :=
  let q := n / d
  let r := n % d
  if 2 * r < d then q else if d < 2 * r then q + 1 else q + q % 2

/-- The nonnegative number nearest to `n / d` times `2 ^ -1074`; none if that is out of range. -/
def ofUnits? (n d : Nat) : Option Binary64 :=
  let scale := Nat.log2 (n / d) - 52
  let magnitude := scale * Nat.pow 2 52 + nearest n (d * Nat.pow 2 scale)
  if magnitude < infinity then some ⟨UInt64.ofNat magnitude⟩ else none

/-- The number nearest to a natural. -/
def ofNat? (n : Nat) : Option Binary64 := ofUnits? (n * Nat.pow 2 1074) 1

/-- The product of two magnitudes, rounded. -/
def mul? (x y : Binary64) : Option Binary64 := ofUnits? (x.units * y.units) (Nat.pow 2 1074)

/-- The quotient of two magnitudes, rounded. -/
def div? (x y : Binary64) : Option Binary64 := ofUnits? (x.units * Nat.pow 2 1074) y.units

/-- Equality as numbers: the two zeros are equal, and nothing equals a NaN. -/
def same (x y : Binary64) : Bool :=
  !x.isNaN && !y.isNaN && ((x.isZero && y.isZero) || x.bits == y.bits)

end Binary64

end SheddingQueue
