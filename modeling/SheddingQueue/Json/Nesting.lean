import SheddingQueue.Json.Value

/-!
# Values at every depth

The scalars of a value lie at any depth in it. `Value.all` tests every one of them, `Value.map`
replaces them, and `Value.at?` finds what lies at the end of a path. Proofs about a value go by
`Value.inductionOn`: what is to be shown of a list or an object is known of what lies in it.

A value is finite if all its doubles are. Its canonical form has zero for minus zero and is the same
otherwise.
-/

namespace SheddingQueue

namespace Binary64

def minusZero : Binary64 := zero.withSign true

/-- Zero for minus zero. -/
def canonical (x : Binary64) : Binary64 := if x = minusZero then zero else x

end Binary64

namespace Json

def Number.isInteger : Number → Bool
  | .float _ => false
  | _ => true

def Number.isFinite : Number → Bool
  | .float x => x.isFinite
  | _ => true

def Number.canonical : Number → Number
  | .float x => .float x.canonical
  | n => n

def Scalar.isFinite : Scalar → Bool
  | .number n => n.isFinite
  | _ => true

def Scalar.canonical : Scalar → Scalar
  | .number n => .number n.canonical
  | s => s

mutual

/-- Whether every scalar in a value passes a test. -/
def Value.all (p : Scalar → Bool) : Value → Bool
  | .scalar s => p s
  | .list xs => Value.allItems p xs
  | .object ms => Value.allMembers p ms

def Value.allItems (p : Scalar → Bool) : List Value → Bool
  | [] => true
  | x :: xs => x.all p && Value.allItems p xs

def Value.allMembers (p : Scalar → Bool) : List (String × Value) → Bool
  | [] => true
  | (_, v) :: ms => v.all p && Value.allMembers p ms

end

mutual

/-- Another scalar in the place of each scalar in a value. -/
def Value.map (f : Scalar → Scalar) : Value → Value
  | .scalar s => .scalar (f s)
  | .list xs => .list (Value.mapItems f xs)
  | .object ms => .object (Value.mapMembers f ms)

def Value.mapItems (f : Scalar → Scalar) : List Value → List Value
  | [] => []
  | x :: xs => x.map f :: Value.mapItems f xs

def Value.mapMembers (f : Scalar → Scalar) : List (String × Value) → List (String × Value)
  | [] => []
  | (k, v) :: ms => (k, v.map f) :: Value.mapMembers f ms

end

/-- A step down into a value. -/
inductive Step where
  | item (i : Nat)
  | member (key : String)
  deriving DecidableEq, Repr

namespace Value

def isFinite (v : Value) : Bool := v.all Scalar.isFinite

def canonical (v : Value) : Value := v.map Scalar.canonical

/-- A double as a value. In JSON there is no infinity and no NaN, and null stands for them. -/
def ofFloat (x : Binary64) : Value :=
  .scalar (if x.isFinite then .number (.float x) else .null)

def child? : Step → Value → Option Value
  | .item i, .list xs => xs[i]?
  | .member key, .object ms => Members.get? key ms
  | _, _ => none

/-- What lies at the end of a path. -/
def at? : List Step → Value → Option Value
  | [], v => some v
  | step :: path, v => (v.child? step).bind (at? path)

/-- What holds of every scalar, and of a list and of an object if it holds of all that lies in
them, holds of every value. -/
@[elab_as_elim]
theorem inductionOn {motive : Value → Prop} (scalar : ∀ s, motive (.scalar s))
    (list : ∀ xs, (∀ x ∈ xs, motive x) → motive (.list xs))
    (object : ∀ ms, (∀ m ∈ ms, motive m.2) → motive (.object ms)) : ∀ v, motive v
  | .scalar s => scalar s
  | .list xs => list xs fun x _ => inductionOn scalar list object x
  | .object ms => object ms fun m _ => inductionOn scalar list object m.2
decreasing_by
  · have hx : sizeOf x < sizeOf xs := List.sizeOf_lt_of_mem ‹x ∈ xs›
    simp only [Value.list.sizeOf_spec]
    omega
  · have hm : sizeOf m < sizeOf ms := List.sizeOf_lt_of_mem ‹m ∈ ms›
    obtain ⟨k, v⟩ := m
    simp only [Prod.mk.sizeOf_spec] at hm
    simp only [Value.object.sizeOf_spec]
    omega

theorem isFinite_ofFloat (x : Binary64) : (ofFloat x).isFinite = true := by
  rw [ofFloat]
  split
  · next h => exact h
  · rfl

/-! ## Lists and objects -/

variable {p : Scalar → Bool} {f : Scalar → Scalar} {xs : List Value} {ms : Members}

theorem all_list : (list xs).all p = true ↔ ∀ x ∈ xs, x.all p = true := by
  rw [all]
  induction xs with
  | nil => simp [allItems]
  | cons x xs ih => simp [allItems, ih]

theorem all_object : (object ms).all p = true ↔ ∀ m ∈ ms, m.2.all p = true := by
  rw [all]
  induction ms with
  | nil => simp [allMembers]
  | cons m ms ih =>
    obtain ⟨k, v⟩ := m
    simp [allMembers, ih]

theorem map_list : (list xs).map f = list (xs.map (map f)) := by
  rw [map]
  congr 1
  induction xs with
  | nil => rfl
  | cons x xs ih => rw [mapItems, ih, List.map_cons]

theorem map_object : (object ms).map f = object (ms.map fun m => (m.1, m.2.map f)) := by
  rw [map]
  congr 1
  induction ms with
  | nil => rfl
  | cons m ms ih => rw [mapMembers, ih, List.map_cons]

end Value

namespace Members

/-- Members with their values in canonical form. -/
def canonical (ms : Members) : Members := ms.map fun m => (m.1, m.2.canonical)

@[simp]
theorem canonical_nil : canonical [] = [] := rfl

@[simp]
theorem canonical_cons (m : String × Value) (ms : Members) :
    canonical (m :: ms) = (m.1, m.2.canonical) :: canonical ms := rfl

end Members

end Json

end SheddingQueue
