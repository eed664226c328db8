/-!
# Text without terminal controls

A terminal takes control characters and escape sequences as commands. A message that quotes what
somebody typed shows it with `withoutControls`, which leaves both out. Of the control characters
only those that are white space stay. Where white space stands in an escape sequence, it either
ends the sequence or suspends it until a control character that is left out.

A sequence that is not complete swallows all that is left of the text, so what comes behind the
quoted text has to start with an escape of its own.
-/

namespace SheddingQueue.Text

/-- Whether a control character is white space that a message keeps. -/
def isLayout (c : Char) : Bool := c == '\t' || c == '\n' || c == '\x0c' || c == '\r'

/-- Whether a character is shown where no sequence has begun. -/
def isShown (c : Char) : Bool := isLayout c || (' ' ≤ c && c != '\x7f')

/-- What has begun and is not complete. -/
inductive Sequence where
  | none
  /-- An escape character. -/
  | escape
  /-- An escape character and characters that only another one completes. -/
  | intermediate
  /-- A control sequence: parameters up to a letter or another character of these columns. -/
  | control
  /-- A device control string, before its parameters. -/
  | device
  | deviceParameters
  | deviceIntermediate
  /-- The body of a device control string, or a string that nobody reads. -/
  | body
  /-- An operating system command. -/
  | command
  deriving DecidableEq, Repr

namespace Sequence

/-- Whether a character lies between two others. -/
def within (low high c : Char) : Bool := low ≤ c && c ≤ high

/-- What the character after an escape character begins. -/
def afterEscape (c : Char) : Sequence :=
  if within ' ' '/' c then intermediate
  else if c = '[' then control
  else if c = ']' then command
  else if c = 'P' then device
  else if c = 'X' ∨ c = '^' ∨ c = '_' then body
  else if within '0' '~' c then none
  else escape

/-- The headers of a device control string. Where one goes wrong, the rest of it is as good as a
body. -/
def afterDevice (s : Sequence) (c : Char) : Sequence :=
  if within '@' '~' c then body
  else if within ' ' '/' c then deviceIntermediate
  else if within '0' '?' c then
    if s = device ∨ (s = deviceParameters ∧ c ≤ ';') then deviceParameters else body
  else s

/-- Whether a character ends the body of a string: its encoding has the byte that says so. -/
def endsBody (c : Char) : Bool := (String.utf8EncodeChar c).contains 0x9c

/-- What a character makes of a sequence that goes on. -/
def next (s : Sequence) (c : Char) : Sequence :=
  match s with
  | none => none
  | escape => afterEscape c
  | intermediate => if within '0' '~' c then none else intermediate
  | control => if within '@' '~' c then none else control
  | device | deviceParameters | deviceIntermediate => afterDevice s c
  | body => if endsBody c then none else body
  | command => if c = '\x07' then none else command

/-- Whether a character is shown, for all that has begun. -/
def shows (s : Sequence) (c : Char) : Bool :=
  match s with
  | none => isShown c
  | escape | intermediate | control => isLayout c
  | device | deviceParameters | deviceIntermediate | body | command => false

theorem isShown_of_shows {s : Sequence} {c : Char} (h : s.shows c = true) : isShown c = true := by
  cases s <;> simp_all [shows, isShown]

end Sequence

/-- What white space does to an escape sequence that it stands in. -/
inductive Interruption where
  | ends
  /-- Text is shown from there on. The sequence goes on at the next control character that is left
  out, if no character beyond ASCII has come before. -/
  | suspends
  deriving DecidableEq, Repr

/-- What has begun, and whether it is suspended. -/
structure Pending where
  sequence : Sequence := .none
  suspended : Bool := false
  deriving DecidableEq, Repr

namespace Pending

/-- Whether a character is shown. -/
def shows (p : Pending) (c : Char) : Bool :=
  if p.suspended then isShown c else p.sequence.shows c

/-- What has begun after a character. An escape starts anew, and a cancelling character ends
everything. -/
def feed (i : Interruption) (p : Pending) (c : Char) : Pending :=
  if c = '\x1b' then { sequence := .escape }
  else if c = '\x18' ∨ c = '\x1a' then {}
  else if p.shows c then
    if i = .ends ∨ '\x7f' < c then {} else { p with suspended := true }
  else { sequence := p.sequence.next c }

/-- The characters that are shown. -/
def shown (i : Interruption) (p : Pending) : List Char → List Char
  | [] => []
  | c :: cs =>
    let rest := shown i (p.feed i c) cs
    if p.shows c then c :: rest else rest

theorem isShown_of_shows {p : Pending} {c : Char} (h : p.shows c = true) : isShown c = true := by
  unfold shows at h
  split at h
  · exact h
  · exact Sequence.isShown_of_shows h

/-- No control character is left but white space. -/
theorem isShown_of_mem_shown {i : Interruption} {p : Pending} {c : Char} {cs : List Char}
    (h : c ∈ shown i p cs) : isShown c = true := by
  induction cs generalizing p with
  | nil => cases h
  | cons d cs ih =>
    rw [shown] at h
    split at h
    · next hd =>
      cases h with
      | head => exact isShown_of_shows hd
      | tail _ h => exact ih h
    · exact ih h

end Pending

/-- A text without control characters and escape sequences. -/
def withoutControls (i : Interruption) (s : String) : String :=
  String.ofList (Pending.shown i {} s.toList)

end SheddingQueue.Text
