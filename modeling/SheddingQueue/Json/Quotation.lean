import SheddingQueue.Json.Cursor
import SheddingQueue.Text.Utf8

/-!
# Quoted text in JSON

Text is read a byte at a time. `Quotation.State` says what the bytes so far lead one to expect,
and `State.feed` what one more byte means there. The bytes that the text stands for are collected
and have to be UTF-8 as a whole.
-/

namespace SheddingQueue.Json.Quotation

/-- What comes next. `high` is the first half of a pair of surrogates. -/
inductive State where
  | plain
  /-- After a backslash. -/
  | escape
  /-- Four hexadecimal digits, of which these were seen. -/
  | hex (high : Option Nat) (seen : List UInt8)
  /-- The backslash of the second half of a pair. -/
  | lowEscape (high : Nat)
  /-- The `u` of the second half of a pair. -/
  | lowHex (high : Nat)
  deriving DecidableEq, Repr

/-- What a byte means. -/
inductive Step where
  /-- The text goes on, with some bytes more. -/
  | go (bytes : List UInt8) (next : State)
  /-- The closing quote. -/
  | close
  | fail (cause : Cause)
  deriving DecidableEq, Repr

def hexDigit? (b : UInt8) : Option Nat :=
  if 0x30 ≤ b ∧ b ≤ 0x39 then some (b.toNat - 0x30)
  else if 0x61 ≤ b ∧ b ≤ 0x66 then some (b.toNat - 0x61 + 10)
  else if 0x41 ≤ b ∧ b ≤ 0x46 then some (b.toNat - 0x41 + 10)
  else none

/-- The number that hexadecimal digits spell. -/
def hexValue? (bytes : List UInt8) : Option Nat :=
  bytes.foldlM (fun n b => (hexDigit? b).map (n * 16 + ·)) 0

def isHighSurrogate (n : Nat) : Bool := 0xd800 ≤ n && n < 0xdc00

def isLowSurrogate (n : Nat) : Bool := 0xdc00 ≤ n && n < 0xe000

/-- A character as its bytes. -/
def spell (n : Nat) : List UInt8 := String.utf8EncodeChar (Char.ofNat n)

/-- What a 16-bit unit means: a character, or one half of a pair. -/
def unit (high : Option Nat) (n : Nat) : Step :=
  match high with
  | none =>
    if isLowSurrogate n then .fail .loneSurrogate
    else if isHighSurrogate n then .go [] (.lowEscape n)
    else .go (spell n) .plain
  | some high =>
    if isLowSurrogate n then
      .go (spell ((high - 0xd800) * 0x400 + (n - 0xdc00) + 0x10000)) .plain
    else .fail .loneSurrogate

/-- The byte that a letter after a backslash stands for. -/
def escaped? (b : UInt8) : Option UInt8 :=
  if b = 0x22 ∨ b = 0x5c ∨ b = 0x2f then some b
  else if b = 0x62 then some 0x08
  else if b = 0x66 then some 0x0c
  else if b = 0x6e then some 0x0a
  else if b = 0x72 then some 0x0d
  else if b = 0x74 then some 0x09
  else none

def State.feed (b : UInt8) : State → Step
  | .plain =>
    if b = 0x22 then .close
    else if b = 0x5c then .go [] .escape
    else if b < 0x20 then .fail .controlCharacter
    else .go [b] .plain
  | .escape =>
    if b = 0x75 then .go [] (.hex none [])
    else match escaped? b with
      | some c => .go [c] .plain
      | none => .fail .badEscape
  | .hex high seen =>
    let seen := seen ++ [b]
    if seen.length < 4 then .go [] (.hex high seen)
    else match hexValue? seen with
      | some n => unit high n
      | none => .fail .badEscape
  | .lowEscape high => if b = 0x5c then .go [] (.lowHex high) else .fail .unpairedSurrogate
  | .lowHex high => if b = 0x75 then .go [] (.hex (some high) []) else .fail .unpairedSurrogate

/-- The bytes that a text stands for, up to its closing quote, and the place after it. `done` has
the bytes so far, the last one first. -/
def bytesFrom (state : State) (done : List UInt8) (offset : Nat) :
    List UInt8 → Except Fault (List UInt8 × Cursor)
  | [] => .error ⟨.endInText, offset⟩
  | b :: rest =>
    match state.feed b with
    | .go more next => bytesFrom next (more.reverse ++ done) (offset + 1) rest
    | .close => .ok (done.reverse, ⟨offset + 1, rest⟩)
    | .fail cause => .error ⟨cause, offset + 1⟩

/-- The text at a place behind an opening quote, and the place after its closing quote. -/
def read (c : Cursor) : Except Fault (String × Cursor) :=
  match bytesFrom .plain [] c.offset c.rest with
  | .error fault => .error fault
  | .ok (bytes, stop) =>
    match Utf8.decode bytes with
    | (cs, []) => .ok (String.ofList cs, stop)
    | (_, left) => stop.fault (.badCharacter left.length)

theorem length_of_bytesFrom {state : State} {done : List UInt8} {offset : Nat}
    {input bytes : List UInt8} {stop : Cursor}
    (h : bytesFrom state done offset input = .ok (bytes, stop)) :
    stop.rest.length < input.length := by
  fun_induction bytesFrom state done offset input with
  | case1 => cases h
  | case2 _ _ _ _ _ _ _ _ ih => exact Nat.lt_succ_of_lt (ih h)
  | case3 => cases h; exact Nat.lt_succ_self _
  | case4 => cases h

theorem length_of_read {c stop : Cursor} {s : String} (h : read c = .ok (s, stop)) :
    stop.rest.length < c.rest.length := by
  unfold read at h
  split at h
  · cases h
  · split at h
    · cases h
      exact length_of_bytesFrom ‹_›
    · cases h

end SheddingQueue.Json.Quotation
