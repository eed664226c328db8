import SheddingQueue.Text.Hidden

/-!
# Quoted text

`quote` puts text between double quotes so that it stays on one line and shows every character:
quotes, backslashes and the usual controls are written with a backslash, and any other hidden
character by its code point.
-/

namespace SheddingQueue.Text

/-- How one character is written between quotes. -/
def escape (c : Char) : List Char :=
  match c with
  | '\"' => ['\\', '\"']
  | '\\' => ['\\', '\\']
  | '\n' => ['\\', 'n']
  | '\r' => ['\\', 'r']
  | '\t' => ['\\', 't']
  | '\x00' => ['\\', '0']
  | c =>
    if isHidden c then ['\\', 'u', '\x7b'] ++ Nat.toDigits 16 c.toNat ++ ['\x7d']
    else [c]

def quote (s : String) : String :=
  String.ofList ('\"' :: s.toList.flatMap escape ++ ['\"'])

end SheddingQueue.Text
