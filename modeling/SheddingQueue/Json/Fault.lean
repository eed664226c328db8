import SheddingQueue.Decimal.Shortest
import SheddingQueue.Json.Value
import SheddingQueue.Text.Quoted

/-!
# Faults in JSON text

A `Fault` is a cause and the offset of a byte. `Fault.message` words the cause and turns the
offset into a line and a column.
-/

namespace SheddingQueue.Json

/-- A value as far as it has been read: of a container only what it is. -/
inductive Found where
  | scalar (s : Scalar)
  | sequence
  | map
  deriving DecidableEq, Repr

/-- Doubles from `1e-5` to below `1e16` are written out, the others with an exponent. -/
def Found.layout : Layout := ⟨-5, 16, "+"⟩

def Found.describe : Found → String
  | .scalar .null => "null"
  | .scalar (.bool b) => "boolean `" ++ toString b ++ "`"
  | .scalar (.number (.natural n)) => "integer `" ++ toString n.toNat ++ "`"
  | .scalar (.number (.negative n)) => "integer `" ++ toString n.toInt ++ "`"
  | .scalar (.number (.float x)) => "floating point `" ++ layout.text x ++ "`"
  | .scalar (.text s) => "string " ++ Text.quote s
  | .sequence => "sequence"
  | .map => "map"

inductive Cause where
  | endInValue
  | endInObject
  | endInList
  | endInText
  | noValue
  | noWord
  | noColon
  | noSeparatorInObject
  | noSeparatorInList
  | noKey
  | trailingComma
  | trailingCharacters
  | tooDeep
  | controlCharacter
  | badEscape
  | loneSurrogate
  | unpairedSurrogate
  /-- The text is not UTF-8; its last `undecoded` bytes were not understood. -/
  | badCharacter (undecoded : Nat)
  | badNumber
  | numberOutOfRange
  | wrongType (found : Found) (expected : String)
  | repeatedKey (key : String)
  deriving DecidableEq, Repr

def Cause.text : Cause → String
  | .endInValue => "EOF while parsing a value"
  | .endInObject => "EOF while parsing an object"
  | .endInList => "EOF while parsing a list"
  | .endInText => "EOF while parsing a string"
  | .noValue => "expected value"
  | .noWord => "expected ident"
  | .noColon => "expected `:`"
  | .noSeparatorInObject => "expected `,` or `\x7d`"
  | .noSeparatorInList => "expected `,` or `]`"
  | .noKey => "key must be a string"
  | .trailingComma => "trailing comma"
  | .trailingCharacters => "trailing characters"
  | .tooDeep => "recursion limit exceeded"
  | .controlCharacter => "control character (\\u0000-\\u001F) found while parsing a string"
  | .badEscape => "invalid escape"
  | .loneSurrogate => "lone leading surrogate in hex escape"
  | .unpairedSurrogate => "unexpected end of hex escape"
  | .badCharacter _ => "invalid unicode code point"
  | .badNumber => "invalid number"
  | .numberOutOfRange => "number out of range"
  | .wrongType found expected => "invalid type: " ++ found.describe ++ ", expected " ++ expected
  | .repeatedKey key => "duplicate field `" ++ key ++ "`"

/-- What is wrong, and the number of bytes before the place where that is. -/
structure Fault where
  cause : Cause
  offset : Nat
  deriving DecidableEq, Repr

/-- A place in a text. Lines count from one; the column is the number of bytes before it in its
line. -/
structure Position where
  line : Nat
  column : Nat
  deriving DecidableEq, Repr

/-- The place one byte further on. -/
def Position.after (p : Position) (b : UInt8) : Position :=
  if b = 0x0a then ⟨p.line + 1, 0⟩ else ⟨p.line, p.column + 1⟩

/-- The place behind some bytes. -/
def Position.behind (bytes : List UInt8) : Position := bytes.foldl Position.after ⟨1, 0⟩

/-- Where a fault is reported: text that is not UTF-8 before the bytes not understood, as far as
they are on its last line, and everything else at its offset. -/
def Fault.position (f : Fault) (bytes : List UInt8) : Position :=
  let p := Position.behind (bytes.take f.offset)
  match f.cause with
  | .badCharacter undecoded => ⟨p.line, p.column - undecoded⟩
  | _ => p

def Fault.message (f : Fault) (bytes : List UInt8) : String :=
  let p := f.position bytes
  f.cause.text ++ " at line " ++ toString p.line ++ " column " ++ toString p.column

end SheddingQueue.Json
