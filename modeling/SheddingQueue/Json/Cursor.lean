import SheddingQueue.Json.Fault

/-!
# Reading places

A `Cursor` is a place in a text: what is still to be read there and how many bytes lie before it.
-/

namespace SheddingQueue.Json

structure Cursor where
  offset : Nat
  rest : List UInt8
  deriving DecidableEq, Repr

def isBlank (b : UInt8) : Bool := b == 0x20 || b == 0x09 || b == 0x0a || b == 0x0d

def isDigit (b : UInt8) : Bool := 0x30 ≤ b && b ≤ 0x39

namespace Cursor

/-- A fault at a place. -/
def fault {α : Type} (c : Cursor) (cause : Cause) : Except Fault α := .error ⟨cause, c.offset⟩

/-- A fault of the byte that comes next: it is reported behind that byte. -/
def faultAhead {α : Type} (c : Cursor) (cause : Cause) : Except Fault α :=
  .error ⟨cause, c.offset + 1⟩

/-- The values of the digits at a place. -/
def digits (c : Cursor) : List Nat := (c.rest.takeWhile isDigit).map fun b => b.toNat - 0x30

/-- The place after the digits at a place. -/
def afterDigits (c : Cursor) : Cursor :=
  ⟨c.offset + (c.rest.takeWhile isDigit).length, c.rest.dropWhile isDigit⟩

theorem length_afterDigits (c : Cursor) : c.afterDigits.rest.length ≤ c.rest.length :=
  (List.dropWhile_suffix isDigit).length_le

/-- Digits at a place are passed over. -/
theorem length_afterDigits_lt {c : Cursor} {d : UInt8} {rest : List UInt8}
    (h : c.rest = d :: rest) (hd : isDigit d = true) :
    c.afterDigits.rest.length < c.rest.length := by
  simp only [afterDigits, h, List.dropWhile_cons, hd, if_true, List.length_cons]
  exact Nat.lt_succ_of_le (List.dropWhile_suffix isDigit).length_le

end Cursor

end SheddingQueue.Json
