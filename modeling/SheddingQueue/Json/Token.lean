import SheddingQueue.Json.Numeral
import SheddingQueue.Json.Quotation

/-!
# Tokens of JSON text

`lexemes` cuts a text into tokens, each with the place where it starts and the place after it.
A token that cannot be read is kept as a token that holds its fault, and is the last one: the
fault matters only if such a token is asked for where it stands.
-/

namespace SheddingQueue.Json

inductive Token where
  | leftBrace
  | rightBrace
  | leftBracket
  | rightBracket
  | comma
  | colon
  | scalar (s : Scalar)
  /-- Text in quotes that cannot be read. -/
  | brokenText (fault : Fault)
  /-- A number or a word that cannot be read. -/
  | broken (fault : Fault)
  /-- A byte that starts no token. -/
  | stray
  deriving DecidableEq, Repr

structure Lexeme where
  token : Token
  start : Nat
  stop : Nat
  deriving DecidableEq, Repr

namespace Token

/-- The place after the letters of a word. -/
def readWord (c : Cursor) : List UInt8 → Except Fault Cursor
  | [] => .ok c
  | w :: word =>
    match c.rest with
    | [] => c.fault .endInValue
    | b :: rest =>
      let next : Cursor := ⟨c.offset + 1, rest⟩
      if b = w then readWord next word else next.fault .noWord

/-- A word that stands for a value, by the letters after its first. -/
def word (s : Scalar) (letters : String) (c : Cursor) : Token × Option Cursor :=
  match readWord c (Utf8.encode letters) with
  | .ok stop => (.scalar s, some stop)
  | .error fault => (.broken fault, none)

def text (c : Cursor) : Token × Option Cursor :=
  match Quotation.read c with
  | .ok (s, stop) => (.scalar (.text s), some stop)
  | .error fault => (.brokenText fault, none)

def number (c : Cursor) : Token × Option Cursor :=
  match Numeral.read c with
  | .ok (n, stop) => (.scalar (.number n), some stop)
  | .error fault => (.broken fault, none)

/-- The tokens that are a single byte. -/
def punctuation? (b : UInt8) : Option Token :=
  if b = 0x7b then some .leftBrace
  else if b = 0x7d then some .rightBrace
  else if b = 0x5b then some .leftBracket
  else if b = 0x5d then some .rightBracket
  else if b = 0x2c then some .comma
  else if b = 0x3a then some .colon
  else none

/-- The token that starts with byte `b` at `offset`, and the place after it unless the token cannot
be read. -/
def scan (offset : Nat) (b : UInt8) (rest : List UInt8) : Token × Option Cursor :=
  let next : Cursor := ⟨offset + 1, rest⟩
  match punctuation? b with
  | some token => (token, some next)
  | none =>
    if b = 0x22 then text next
    else if b = 0x6e then word .null "ull" next
    else if b = 0x74 then word (.bool true) "rue" next
    else if b = 0x66 then word (.bool false) "alse" next
    else if b = 0x2d ∨ isDigit b then number ⟨offset, b :: rest⟩
    else (.stray, none)

theorem length_of_readWord {c stop : Cursor} {letters : List UInt8}
    (h : readWord c letters = .ok stop) : stop.rest.length ≤ c.rest.length := by
  induction letters generalizing c with
  | nil => cases h; exact Nat.le_refl _
  | cons w letters ih =>
    unfold readWord at h
    split at h
    · cases h
    · dsimp only at h
      split at h
      · exact Nat.le_trans (ih h) (by simp [*])
      · cases h

theorem length_of_word {s : Scalar} {letters : String} {c stop : Cursor} {t : Token}
    (h : word s letters c = (t, some stop)) : stop.rest.length ≤ c.rest.length := by
  unfold word at h
  split at h <;> cases h
  exact length_of_readWord ‹_›

theorem length_of_text {c stop : Cursor} {t : Token} (h : text c = (t, some stop)) :
    stop.rest.length ≤ c.rest.length := by
  unfold text at h
  split at h <;> cases h
  exact Nat.le_of_lt (Quotation.length_of_read ‹_›)

theorem length_of_number {c stop : Cursor} {t : Token} (h : number c = (t, some stop)) :
    stop.rest.length < c.rest.length := by
  unfold number at h
  split at h <;> cases h
  exact Numeral.length_of_read ‹_›

/-- A token is at least one byte long. -/
theorem length_of_scan {offset : Nat} {b : UInt8} {rest : List UInt8} {stop : Cursor} {t : Token}
    (h : scan offset b rest = (t, some stop)) : stop.rest.length < (b :: rest).length := by
  unfold scan at h
  refine Nat.lt_succ_of_le ?_
  split at h
  · cases h; exact Nat.le_refl _
  · split at h
    · exact length_of_text h
    split at h
    · exact length_of_word h
    split at h
    · exact length_of_word h
    split at h
    · exact length_of_word h
    split at h
    · exact Nat.le_of_lt_succ (length_of_number h)
    · cases h

end Token

/-- The tokens of the text at a place. -/
def lexemesFrom (offset : Nat) : List UInt8 → List Lexeme
  | [] => []
  | b :: rest =>
    if isBlank b then lexemesFrom (offset + 1) rest
    else match _h : Token.scan offset b rest with
      | (token, some stop) => ⟨token, offset, stop.offset⟩ :: lexemesFrom stop.offset stop.rest
      | (token, none) => [⟨token, offset, offset + 1⟩]
termination_by bytes => bytes.length
decreasing_by
  · exact Nat.lt_succ_self _
  · exact Token.length_of_scan _h

/-- The tokens of a text. -/
def lexemes (bytes : List UInt8) : List Lexeme := lexemesFrom 0 bytes

end SheddingQueue.Json
