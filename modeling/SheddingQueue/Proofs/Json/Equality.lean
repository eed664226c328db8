import SheddingQueue.Json.Nesting
import SheddingQueue.Proofs.Json.Members

/-!
# Which values are equal

Two values are equal if their canonical forms are the same (`Value.same_iff`, for values whose
doubles are finite). So no more than the sign of a zero is ever overlooked, at any depth, and an
integer is never taken for a double. Of members that are inserted one after another the last under
each key alone decides what they come to (`Members.canonical_insertAll_eq`).
-/

namespace SheddingQueue

namespace Binary64

variable {x y : Binary64}

theorem isZero_iff : x.isZero = true ↔ x = zero ∨ x = minusZero := by
  have hlt : x.bits.toNat < 2 ^ 64 := x.bits.toNat_lt
  have hbits (n : UInt64) : x = ⟨n⟩ ↔ x.bits.toNat = n.toNat := by
    rw [UInt64.toNat_inj]
    exact ⟨congrArg bits, fun h => congrArg mk h⟩
  have hminus : minusZero = ⟨0x8000000000000000⟩ := by decide
  rw [hminus, zero, hbits, hbits, isZero, beq_iff_eq, magnitude]
  have hpow : Nat.pow 2 63 = 9223372036854775808 := by decide
  have hhigh : (0x8000000000000000 : UInt64).toNat = 9223372036854775808 := by decide
  have hlow : (0 : UInt64).toNat = 0 := by decide
  rw [hpow, hhigh, hlow]
  omega

theorem canonical_eq_iff :
    x.canonical = y.canonical ↔ x = y ∨ (x.isZero = true ∧ y.isZero = true) := by
  have hzero : zero ≠ minusZero := by decide
  rw [isZero_iff, isZero_iff, canonical, canonical]
  by_cases hx : x = minusZero <;> by_cases hy : y = minusZero <;> grind

theorem isNaN_of_isFinite (h : x.isFinite = true) : x.isNaN = false := by
  rw [isFinite, decide_eq_true_iff] at h
  rw [isNaN, decide_eq_false_iff_not]
  omega

/-- Nothing but a NaN differs from itself, and no NaN is finite. -/
theorem same_iff (h : x.isFinite = true) : x.same y = true ↔ x.canonical = y.canonical := by
  have hx : x.isNaN = false := isNaN_of_isFinite h
  have hzero (hy : y.isZero = true) : y.isNaN = false := by
    rw [isZero, beq_iff_eq] at hy
    rw [isNaN, decide_eq_false_iff_not, hy]
    decide
  have hbits : x.bits = y.bits ↔ x = y := ⟨fun h => congrArg mk h, congrArg bits⟩
  rw [canonical_eq_iff, same, hx]
  simp only [Bool.not_false, Bool.true_and, Bool.and_eq_true, Bool.or_eq_true, beq_iff_eq, hbits,
    Bool.not_eq_true']
  constructor
  · rintro ⟨-, hboth | heq⟩
    · exact .inr hboth
    · exact .inl heq
  · rintro (rfl | hboth)
    · exact ⟨hx, .inr rfl⟩
    · exact ⟨hzero hboth.2, .inl hboth⟩

end Binary64

namespace Json

/-! ## Canonical forms -/

theorem Number.same_iff {m n : Number} (h : m.isFinite = true) :
    m.same n = true ↔ m.canonical = n.canonical := by
  cases m with
  | natural m => cases n <;> simp [same, canonical]
  | negative m => cases n <;> simp [same, canonical]
  | float x =>
    cases n with
    | natural n => simp [same, canonical]
    | negative n => simp [same, canonical]
    | float y => simpa [same, canonical] using Binary64.same_iff h

theorem Scalar.same_iff {s t : Scalar} (h : s.isFinite = true) :
    s.same t = true ↔ s.canonical = t.canonical := by
  cases s with
  | number m =>
    cases t with
    | number n => simpa [same, canonical] using Number.same_iff h
    | _ => simp [same, canonical]
  | _ => cases t <;> simp [same, canonical]

namespace Value

variable {xs ys : List Value} {ms ns : Members}

theorem canonical_scalar (s : Scalar) : (scalar s).canonical = scalar s.canonical := rfl

theorem canonical_list : (list xs).canonical = list (xs.map canonical) := map_list

theorem canonical_object : (object ms).canonical = object ms.canonical := map_object

theorem sameItems_iff (h : ∀ x ∈ xs, ∀ y, x.same y = true ↔ x.canonical = y.canonical) :
    sameItems xs ys = true ↔ xs.map canonical = ys.map canonical := by
  induction xs generalizing ys with
  | nil => cases ys <;> simp [sameItems]
  | cons x xs ih =>
    cases ys with
    | nil => simp [sameItems]
    | cons y ys =>
      obtain ⟨hx, hxs⟩ := List.forall_mem_cons.mp h
      simp [sameItems, hx, ih hxs]

theorem sameMembers_iff
    (h : ∀ m ∈ ms, ∀ w, m.2.same w = true ↔ m.2.canonical = w.canonical) :
    sameMembers ms ns = true ↔ ms.canonical = ns.canonical := by
  induction ms generalizing ns with
  | nil => cases ns <;> simp [sameMembers]
  | cons m ms ih =>
    cases ns with
    | nil => simp [sameMembers]
    | cons n ns =>
      obtain ⟨hm, hms⟩ := List.forall_mem_cons.mp h
      simp [sameMembers, hm, ih hms]

/-- Finite values are equal just if their canonical forms are the same. -/
theorem same_iff {v w : Value} (h : v.isFinite = true) :
    v.same w = true ↔ v.canonical = w.canonical := by
  induction v using inductionOn generalizing w with
  | scalar s =>
    cases w with
    | scalar t => simpa [same, canonical, map] using Scalar.same_iff h
    | _ => simp [same, canonical, map]
  | list xs ih =>
    have hxs := all_list.mp h
    cases w with
    | list ys =>
      rw [same, canonical_list, canonical_list, list.injEq]
      exact sameItems_iff fun x hx y => ih x hx (hxs x hx)
    | _ => simp [same, canonical, map]
  | object ms ih =>
    have hms := all_object.mp h
    cases w with
    | object ns =>
      rw [same, canonical_object, canonical_object, object.injEq]
      exact sameMembers_iff fun m hm w => ih m hm (hms m hm)
    | _ => simp [same, canonical, map]

/-! ## Paths -/

theorem get?_map (f : Scalar → Scalar) (key : String) (ms : Members) :
    Members.get? key (ms.map fun m => (m.1, m.2.map f)) = (ms.get? key).map (map f) := by
  induction ms with
  | nil => rfl
  | cons m ms ih =>
    rw [List.map_cons, Members.get?, Members.get?, ih]
    split <;> rfl

theorem child?_map (f : Scalar → Scalar) (step : Step) (v : Value) :
    (v.map f).child? step = (v.child? step).map (map f) := by
  cases v with
  | scalar s => cases step <;> rfl
  | list xs =>
    rw [map_list]
    cases step with
    | item i => exact List.getElem?_map
    | member key => rfl
  | object ms =>
    rw [map_object]
    cases step with
    | item i => rfl
    | member key => exact get?_map f key ms

/-- Paths lead to the same places whatever the scalars are. -/
theorem at?_map (f : Scalar → Scalar) (path : List Step) (v : Value) :
    (v.map f).at? path = (v.at? path).map (map f) := by
  induction path generalizing v with
  | nil => rfl
  | cons step path ih =>
    rw [at?, at?, child?_map]
    cases v.child? step with
    | none => rfl
    | some w => exact ih w

/-- An integer is its own canonical form, and no double has it. -/
theorem canonical_float_ne {n : Number} (hn : n.isInteger = true) (x : Binary64) :
    canonical (scalar (.number n)) ≠ canonical (scalar (.number (.float x))) := by
  cases n with
  | float y => cases hn
  | _ => simp [canonical_scalar, Scalar.canonical, Number.canonical]

end Value

namespace Members

variable {ms : Members}

theorem get?_canonical (key : String) (ms : Members) :
    ms.canonical.get? key = (ms.get? key).map Value.canonical := Value.get?_map _ key ms

theorem ordered_canonical_iff : ms.canonical.Ordered ↔ ms.Ordered := by
  rw [Ordered, canonical, List.pairwise_map, Ordered]

end Members

/-- Under each key the last value is the same, but for the signs of zeros. -/
def SameLast (entries entries' : List (String × Value)) : Prop :=
  ∀ key, (valuesOf key entries).getLast?.map Value.canonical =
    (valuesOf key entries').getLast?.map Value.canonical

/-- Of what is inserted only the last value under each key matters. -/
theorem Members.canonical_insertAll_eq {ms ns : Members}
    {entries entries' : List (String × Value)} (hms : ms.Ordered)
    (h : ms.canonical = ns.canonical) (hlast : SameLast entries entries') :
    (ms.insertAll entries).canonical = (ns.insertAll entries').canonical := by
  -- the canonical form keeps the keys, so both are in order if one is
  have hns : ns.Ordered := ordered_canonical_iff.mp (h ▸ ordered_canonical_iff.mpr hms)
  refine Ordered.ext (ordered_canonical_iff.mpr (hms.insertAll entries))
    (ordered_canonical_iff.mpr (hns.insertAll entries')) fun key => ?_
  rw [get?_canonical, get?_canonical, get?_insertAll, get?_insertAll, Option.map_or,
    Option.map_or, hlast key, ← get?_canonical, ← get?_canonical, h]

end Json

end SheddingQueue
