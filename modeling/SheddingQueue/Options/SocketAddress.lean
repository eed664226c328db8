import SheddingQueue.Text.Count

/-!
# Socket addresses

An address and a port, as in `127.0.0.1:9000` or `[::1]:80`. `SocketAddress.read?` takes IPv4
numbers without leading zeros and IPv6 groups with one run of zeros left out; it knows no names.
`SocketAddress.text` writes the usual form: lower case, the first of the longest runs of zeros
left out.
-/

namespace SheddingQueue

inductive SocketAddress where
  | v4 (octets : List Nat) (port : Nat)
  /-- `scope` is zero if none was given. -/
  | v6 (groups : List Nat) (scope port : Nat)
  deriving DecidableEq, Repr

namespace SocketAddress

/-! ## Reading

Each reader returns what it read and what is left. -/

def hexadecimal? (c : Char) : Option Nat :=
  if c.isDigit then some (c.toNat - '0'.toNat)
  else if 'a' ≤ c ∧ c ≤ 'f' then some (c.toNat - 'a'.toNat + 10)
  else if 'A' ≤ c ∧ c ≤ 'F' then some (c.toNat - 'A'.toNat + 10)
  else none

/-- The digits that a text starts with, and what is left. -/
def digits (digit? : Char → Option Nat) : List Char → List Nat × List Char
  | [] => ([], [])
  | c :: cs =>
    match digit? c with
    | none => ([], c :: cs)
    | some d =>
      let (ds, rest) := digits digit? cs
      (d :: ds, rest)

def ofDigits (radix : Nat) (ds : List Nat) : Nat := ds.foldl (fun n d => n * radix + d) 0

/-- A number below `limit` in decimal digits, any number of them. -/
def number? (limit : Nat) (cs : List Char) : Option (Nat × List Char) :=
  let (ds, rest) := digits Count.digit? cs
  if ds ≠ [] ∧ ofDigits 10 ds < limit then some (ofDigits 10 ds, rest) else none

/-- A number below 256 in at most three digits, without a zero in front. -/
def octet? (cs : List Char) : Option (Nat × List Char) :=
  let (ds, rest) := digits Count.digit? cs
  if ds ≠ [] ∧ ds.length ≤ 3 ∧ (ds.head? = some 0 → ds.length = 1) ∧ ofDigits 10 ds < 256 then
    some (ofDigits 10 ds, rest)
  else none

/-- At most four hexadecimal digits. -/
def group? (cs : List Char) : Option (Nat × List Char) :=
  let (ds, rest) := digits hexadecimal? cs
  if ds ≠ [] ∧ ds.length ≤ 4 then some (ofDigits 16 ds, rest) else none

def char? (c : Char) : List Char → Option (Unit × List Char)
  | d :: cs => if c = d then some ((), cs) else none
  | [] => none

/-- Four numbers with points between them. -/
def octets? (cs : List Char) : Option (List Nat × List Char) := do
  let (a, cs) ← octet? cs
  let (_, cs) ← char? '.' cs
  let (b, cs) ← octet? cs
  let (_, cs) ← char? '.' cs
  let (c, cs) ← octet? cs
  let (_, cs) ← char? '.' cs
  let (d, cs) ← octet? cs
  return ([a, b, c, d], cs)

/-- A colon, unless it is the first of several groups. -/
def separator? (first : Bool) (cs : List Char) : Option (Unit × List Char) :=
  if first then some ((), cs) else char? ':' cs

/-- Up to `most` groups with colons between them, the last two perhaps written as an IPv4 address.
Also says whether they were. -/
def groups (first : Bool) : (most : Nat) → List Char → List Nat × Bool × List Char
  | 0, cs => ([], false, cs)
  | 1, cs =>
    match (separator? first cs).bind fun r => group? r.2 with
    | some (g, rest) => ([g], false, rest)
    | none => ([], false, cs)
  | most + 2, cs =>
    match (separator? first cs).bind fun r => octets? r.2 with
    | some ([a, b, c, d], rest) => ([a * 256 + b, c * 256 + d], true, rest)
    | _ =>
      match (separator? first cs).bind fun r => group? r.2 with
      | none => ([], false, cs)
      | some (g, rest) =>
        let (gs, embedded, rest) := groups false (most + 1) rest
        (g :: gs, embedded, rest)

/-- Eight groups, or fewer with two colons in place of the zeros left out: at least one group, and
not behind an IPv4 address. -/
def address6? (cs : List Char) : Option (List Nat × List Char) :=
  let (head, embedded, cs) := groups true 8 cs
  if head.length = 8 then some (head, cs)
  else if embedded then none
  else do
    let (_, cs) ← char? ':' cs
    let (_, cs) ← char? ':' cs
    let (tail, _, cs) := groups true (7 - head.length) cs
    return (head ++ List.replicate (8 - head.length - tail.length) 0 ++ tail, cs)

def port? (cs : List Char) : Option (Nat × List Char) := do
  let (_, cs) ← char? ':' cs
  number? (Nat.pow 2 16) cs

def scope? (cs : List Char) : Option (Nat × List Char) := do
  let (_, cs) ← char? '%' cs
  number? (Nat.pow 2 32) cs

def readV4? (cs : List Char) : Option (SocketAddress × List Char) := do
  let (octets, cs) ← octets? cs
  let (port, cs) ← port? cs
  return (.v4 octets port, cs)

def readV6? (cs : List Char) : Option (SocketAddress × List Char) := do
  let (_, cs) ← char? '[' cs
  let (groups, cs) ← address6? cs
  let (scope, cs) := (scope? cs).getD (0, cs)
  let (_, cs) ← char? ']' cs
  let (port, cs) ← port? cs
  return (.v6 groups scope port, cs)

def read? (s : String) : Option SocketAddress :=
  match (readV4? s.toList).orElse fun _ => readV6? s.toList with
  | some (a, []) => some a
  | _ => none

/-! ## Writing -/

def hex (n : Nat) : String := String.ofList (Nat.toDigits 16 n)

/-- The number of zeros that a list starts with. -/
def zeros (gs : List Nat) : Nat := (gs.takeWhile (· == 0)).length

/-- Start and length of the first of the longest runs of zeros. -/
def longestZeros (gs : List Nat) : Nat × Nat :=
  (List.range gs.length).foldl
    (fun best i => let n := zeros (gs.drop i); if best.2 < n then (i, n) else best) (0, 0)

def joined (gs : List Nat) : String := ":".intercalate (gs.map hex)

def octetsText (octets : List Nat) : String := ".".intercalate (octets.map toString)

/-- An IPv4 address in IPv6 is written as such. Otherwise the longest run of at least two zeros is
left out. -/
def address6Text (gs : List Nat) : String :=
  match gs with
  | [0, 0, 0, 0, 0, 0xffff, a, b] =>
    "::ffff:" ++ octetsText [a / 256, a % 256, b / 256, b % 256]
  | _ =>
    let (start, length) := longestZeros gs
    if 1 < length then joined (gs.take start) ++ "::" ++ joined (gs.drop (start + length))
    else joined gs

def text : SocketAddress → String
  | .v4 octets port => octetsText octets ++ ":" ++ toString port
  | .v6 gs scope port =>
    "[" ++ address6Text gs ++ (if scope = 0 then "" else "%" ++ toString scope) ++ "]:"
      ++ toString port

end SocketAddress

end SheddingQueue
