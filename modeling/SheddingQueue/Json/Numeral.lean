import SheddingQueue.Json.Cursor

/-!
# Numerals

`Numeral.read` splits a number into its digits, and `Numeral.number` gives their value. An
integer that fits 64 bits is one; every other number is a double.

The double is not the nearest one. As many leading digits as fit 64 bits make a significand,
which is rounded and then multiplied or divided by a rounded power of ten, rounding again.
-/

namespace SheddingQueue.Json

/-- The digits of a number, as written. -/
structure Numeral where
  negative : Bool
  whole : List Nat
  /-- The digits after a point. -/
  fraction : Option (List Nat)
  /-- The sign and the digits of an exponent. -/
  exponent : Option (Bool × List Nat)
  deriving DecidableEq, Repr

namespace Numeral

/-- Append digits to a number for as long as the result stays below `limit`. Also returns how many
digits are left over. -/
def collect (limit : Nat) : Nat → List Nat → Nat × Nat
  | n, [] => (n, 0)
  | n, d :: ds => if n * 10 + d < limit then collect limit (n * 10 + d) ds else (n, ds.length + 1)

/-- The powers of ten that are held as doubles reach to this one. -/
def greatestPower : Nat := 308

def powerOfTen? (k : Nat) : Option Binary64 := Binary64.ofNat? (Nat.pow 10 k)

/-- A double divided by the greatest power held. -/
def lowered? (x : Binary64) : Option Binary64 := (powerOfTen? greatestPower).bind x.div?

/-- Divide a double by a power of ten. One beyond the greatest is divided off in steps. -/
def divided? (x : Binary64) (k : Nat) : Option Binary64 :=
  if k ≤ greatestPower then (powerOfTen? k).bind x.div?
  else if x.isZero then some x
  else (lowered? x).bind fun y => divided? y (k - greatestPower)
termination_by k
decreasing_by simp only [greatestPower] at *; omega

/-- Multiply a double with a power of ten; none if the result is out of range. -/
def multiplied? (x : Binary64) (k : Nat) : Option Binary64 :=
  if k ≤ greatestPower then (powerOfTen? k).bind x.mul?
  else if x.isZero then some x
  else none

def scaled? (x : Binary64) (e : Int) : Option Binary64 :=
  if 0 ≤ e then multiplied? x e.natAbs else divided? x e.natAbs

/-- The value of an integer: a double if it does not fit 64 bits, and for minus zero. -/
def integer (negative : Bool) (n : Nat) : Option Number :=
  if !negative then some (.natural (UInt64.ofNat n))
  else if n ≠ 0 ∧ n ≤ Nat.pow 2 63 then some (.negative (Int64.ofInt (-n)))
  else (Binary64.ofNat? n).map fun x => .float (x.withSign true)

/-- The value of a significand times a power of ten. -/
def real (negative : Bool) (significand : Nat) (exponent : Int) : Option Number := do
  let x ← scaled? (← Binary64.ofNat? significand) exponent
  return .float (x.withSign negative)

/-- The value of a number. If it is out of range, the number of its digits that were not looked
at. -/
def number (n : Numeral) : Except Nat Number :=
  let (leading, raised) := collect (Nat.pow 2 64) 0 n.whole
  let fraction := n.fraction.getD []
  let (significand, ignored) := collect (Nat.pow 2 64) leading fraction
  let exponent : Int := raised - (fraction.length - ignored : Nat)
  let inRange (x : Option Number) : Except Nat Number := x.elim (.error 0) .ok
  match n.fraction, n.exponent with
  | none, none => inRange <|
    if raised = 0 then integer n.negative leading else real n.negative leading exponent
  | _, none => inRange (real n.negative significand exponent)
  | _, some (lowers, digits) =>
    match collect (Nat.pow 2 31) 0 digits with
    | (e, 0) => inRange <|
      real n.negative significand (if lowers then exponent - e else exponent + e)
    | (_, rest + 1) =>
      if significand = 0 ∨ lowers then .ok (.float (Binary64.zero.withSign n.negative))
      else .error rest

/-- The digits before a point or an exponent. A zero stands alone. -/
def readWhole (c : Cursor) : Except Fault (List Nat × Cursor) :=
  match c.rest with
  | [] => c.fault .endInValue
  | d :: rest =>
    if !isDigit d then c.faultAhead .badNumber
    else if d = 0x30 then
      let c : Cursor := ⟨c.offset + 1, rest⟩
      if c.digits.isEmpty then .ok ([0], c) else c.faultAhead .badNumber
    else .ok (c.digits, c.afterDigits)

/-- A point and the digits after it, if there is a point. -/
def readFraction (c : Cursor) : Except Fault (Option (List Nat) × Cursor) :=
  match c.rest with
  | 0x2e :: rest =>
    let c : Cursor := ⟨c.offset + 1, rest⟩
    match rest with
    | [] => c.fault .endInValue
    | d :: _ => if isDigit d then .ok (some c.digits, c.afterDigits) else c.faultAhead .badNumber
  | _ => .ok (none, c)

/-- Whether a sign at a place is a minus, and the place after the sign. -/
def readSign (c : Cursor) : Bool × Cursor :=
  match c.rest with
  | 0x2b :: rest => (false, ⟨c.offset + 1, rest⟩)
  | 0x2d :: rest => (true, ⟨c.offset + 1, rest⟩)
  | _ => (false, c)

/-- The sign and digits of an exponent, if there is one. -/
def readExponent (c : Cursor) : Except Fault (Option (Bool × List Nat) × Cursor) :=
  match c.rest with
  | [] => .ok (none, c)
  | b :: rest =>
    if b = 0x65 ∨ b = 0x45 then
      let (lowers, c) := readSign ⟨c.offset + 1, rest⟩
      match c.rest with
      | [] => c.fault .endInValue
      | d :: _ =>
        if isDigit d then .ok (some (lowers, c.digits), c.afterDigits)
        else c.faultAhead .badNumber
    else .ok (none, c)

/-- What follows the minus, if there is one. -/
def readMagnitude (negative : Bool) (c : Cursor) : Except Fault (Numeral × Cursor) := do
  let (whole, c) ← readWhole c
  let (fraction, c) ← readFraction c
  let (exponent, c) ← readExponent c
  return (⟨negative, whole, fraction, exponent⟩, c)

/-- The number at a place, and the place after it. -/
def read (c : Cursor) : Except Fault (Number × Cursor) := do
  let (numeral, stop) ← match c.rest with
    | 0x2d :: rest => readMagnitude true ⟨c.offset + 1, rest⟩
    | _ => readMagnitude false c
  match numeral.number with
  | .ok n => return (n, stop)
  | .error unread => .error ⟨.numberOutOfRange, stop.offset - unread⟩

theorem length_of_readWhole {c stop : Cursor} {ds : List Nat}
    (h : readWhole c = .ok (ds, stop)) : stop.rest.length < c.rest.length := by
  unfold readWhole at h
  dsimp only at h
  repeat' split at h
  all_goals cases h
  · simp [*]
  · exact Cursor.length_afterDigits_lt ‹_› (by simp_all)

theorem length_of_readFraction {c stop : Cursor} {ds : Option (List Nat)}
    (h : readFraction c = .ok (ds, stop)) : stop.rest.length ≤ c.rest.length := by
  unfold readFraction at h
  repeat' split at h
  all_goals cases h
  · refine Nat.le_trans (Cursor.length_afterDigits _) ?_
    simp [*]
  · exact Nat.le_refl _

theorem length_readSign (c : Cursor) : (readSign c).2.rest.length ≤ c.rest.length := by
  unfold readSign
  split <;> simp [*]

theorem length_of_readExponent {c stop : Cursor} {e : Option (Bool × List Nat)}
    (h : readExponent c = .ok (e, stop)) : stop.rest.length ≤ c.rest.length := by
  unfold readExponent at h
  split at h
  · cases h; exact Nat.le_refl _
  · split at h
    · next rest _ _ =>
      have hs := length_readSign ⟨c.offset + 1, rest⟩
      dsimp only at h
      split at h
      · cases h
      · split at h
        · cases h
          refine Nat.le_trans (Cursor.length_afterDigits _) (Nat.le_trans hs ?_)
          simp [*]
        · cases h
    · cases h; exact Nat.le_refl _

/-- What succeeds in two steps succeeds in the first. -/
theorem exists_of_bind_ok {α β : Type} {x : Except Fault α} {f : α → Except Fault β}
    {b : β} (h : x >>= f = .ok b) : ∃ a, x = .ok a ∧ f a = .ok b := by
  cases x with
  | error => cases h
  | ok a => exact ⟨a, rfl, h⟩

theorem length_of_readMagnitude {negative : Bool} {c stop : Cursor} {n : Numeral}
    (h : readMagnitude negative c = .ok (n, stop)) : stop.rest.length < c.rest.length := by
  obtain ⟨⟨_, _⟩, hw, h⟩ := exists_of_bind_ok h
  obtain ⟨⟨_, _⟩, hf, h⟩ := exists_of_bind_ok h
  obtain ⟨⟨_, _⟩, he, h⟩ := exists_of_bind_ok h
  cases h
  exact Nat.lt_of_le_of_lt (length_of_readExponent he)
    (Nat.lt_of_le_of_lt (length_of_readFraction hf) (length_of_readWhole hw))

/-- A number is at least one byte long. -/
theorem length_of_read {c stop : Cursor} {n : Number} (h : read c = .ok (n, stop)) :
    stop.rest.length < c.rest.length := by
  unfold read at h
  split at h
  · next hc =>
    obtain ⟨⟨_, _⟩, hm, h⟩ := exists_of_bind_ok h
    dsimp only at h
    split at h <;> cases h
    rw [hc]
    exact Nat.lt_succ_of_lt (length_of_readMagnitude hm)
  · obtain ⟨⟨_, _⟩, hm, h⟩ := exists_of_bind_ok h
    dsimp only at h
    split at h <;> cases h
    exact length_of_readMagnitude hm

end Numeral

end SheddingQueue.Json
