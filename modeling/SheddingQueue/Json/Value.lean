import SheddingQueue.Decimal.Binary64

/-!
# JSON values

Numbers are kept in the narrowest of three forms: a 64-bit natural, a negative 64-bit integer, or
a double. The members of an object are kept in the order of their keys, one for each key, so that
two objects with the same members are the same value however they came about; `Members.insert`
keeps it that way.

`Value.same` compares values all the way down. It never takes an integer for a double, and it
compares doubles as numbers.
-/

namespace SheddingQueue.Json

inductive Number where
  | natural (n : UInt64)
  /-- An integer below zero. -/
  | negative (n : Int64)
  | float (x : Binary64)
  deriving DecidableEq, Repr

inductive Scalar where
  | null
  | bool (b : Bool)
  | number (n : Number)
  | text (s : String)
  deriving DecidableEq, Repr

inductive Value where
  | scalar (s : Scalar)
  | list (items : List Value)
  | object (members : List (String × Value))
  deriving Repr

/-- The members of an object by ascending key, or a stretch of them. -/
abbrev Members := List (String × Value)

/-- Put a member at its place. It replaces one of the same key. -/
def Members.insert (key : String) (value : Value) : Members → Members
  | [] => [(key, value)]
  | (k, v) :: rest =>
    if key < k then (key, value) :: (k, v) :: rest
    else if key = k then (key, value) :: rest
    else (k, v) :: insert key value rest

/-- Insert members one after another, so that of several with one key the last stays. -/
def Members.ofList (members : List (String × Value)) : Members :=
  members.foldl (fun ms m => ms.insert m.1 m.2) []

/-- The value under a key. -/
def Members.get? (key : String) : Members → Option Value
  | [] => none
  | (k, v) :: rest => if key = k then some v else get? key rest

theorem Members.get?_insert (key other : String) (value : Value) (ms : Members) :
    (ms.insert key value).get? other = if other = key then some value else ms.get? other := by
  induction ms with
  | nil => rfl
  | cons m rest ih =>
    obtain ⟨k, v⟩ := m
    simp only [insert]
    split
    · rfl
    · split
      · next h => subst h; simp only [get?]; split <;> rfl
      · next h =>
        simp only [get?, ih]
        split
        · next ho => subst ho; rw [if_neg (Ne.symm h)]
        · rfl

def Number.same : Number → Number → Bool
  | .natural m, .natural n => m == n
  | .negative m, .negative n => m == n
  | .float x, .float y => x.same y
  | _, _ => false

def Scalar.same : Scalar → Scalar → Bool
  | .null, .null => true
  | .bool a, .bool b => a == b
  | .number m, .number n => m.same n
  | .text s, .text t => s == t
  | _, _ => false

mutual

/-- Whether two values are equal, at every depth. -/
def Value.same : Value → Value → Bool
  | .scalar a, .scalar b => a.same b
  | .list xs, .list ys => Value.sameItems xs ys
  | .object ms, .object ns => Value.sameMembers ms ns
  | _, _ => false

def Value.sameItems : List Value → List Value → Bool
  | [], [] => true
  | x :: xs, y :: ys => x.same y && Value.sameItems xs ys
  | _, _ => false

def Value.sameMembers : List (String × Value) → List (String × Value) → Bool
  | [], [] => true
  | (k, v) :: ms, (l, w) :: ns => k == l && v.same w && Value.sameMembers ms ns
  | _, _ => false

end

/-- The natural number that a value is, if it is one of 64 bits. A double never is. -/
def Value.natural? : Value → Option UInt64
  | .scalar (.number (.natural n)) => some n
  | _ => none

end SheddingQueue.Json
