import SheddingQueue.Frame.Making
import SheddingQueue.Proofs.Frame.Message
import SheddingQueue.Proofs.Json.Equality
import SheddingQueue.Proofs.Json.Finite

/-!
# Which frames are equal

Frames are equal if they have the same number, the same image, and fields of the same canonical
form (`Frame.same_iff`). It does not matter in which order fields were attached, nor what stood
under their keys before: only the last value under each key does (`Frame.same_withFields`).

Both hold of frames whose doubles are finite and whose fields are in order. Every frame is one of
these unless a double that is not finite was attached to it (`Making.ordered_and_isFinite`).
-/

namespace SheddingQueue

open Json

namespace Frame

/-- All doubles in the fields are finite. -/
def isFinite (f : Frame) : Bool := (Value.object f.fields).isFinite

/-- Zero for minus zero in the fields, at every depth. -/
def canonical (f : Frame) : Frame := { f with fields := f.fields.canonical }

/-- What lies in the fields at the end of a path. -/
def at? (f : Frame) (path : List Step) : Option Value := (Value.object f.fields).at? path

/-- Set fields one after another. -/
def withFields (f : Frame) (calls : List (String × Value)) : Frame :=
  calls.foldl (fun f call => f.withField call.1 call.2) f

variable {f g : Frame} {calls calls' : List (String × Value)}

theorem withFields_eq (f : Frame) (calls : List (String × Value)) :
    f.withFields calls = { f with fields := f.fields.insertAll calls } := by
  induction calls generalizing f with
  | nil => rfl
  | cons call calls ih => exact ih (f.withField call.1 call.2)

theorem isFinite_iff : f.isFinite = true ↔ ∀ m ∈ f.fields, m.2.isFinite = true :=
  Value.all_object

/-! ## Equality -/

/-- Frames are equal just if they are the same but for the signs of zeros. -/
theorem same_iff (h : f.isFinite = true) : (f == g) = true ↔ f.canonical = g.canonical := by
  have hfields : Value.sameMembers f.fields g.fields = true ↔
      f.fields.canonical = g.fields.canonical := by
    refine Iff.trans (Value.same_iff (w := .object g.fields) h) ?_
    rw [Value.canonical_object, Value.canonical_object, Value.object.injEq]
  show f.same g = true ↔ _
  rw [same, Bool.and_eq_true, Bool.and_eq_true, beq_iff_eq, beq_iff_eq, hfields]
  simp [canonical, and_assoc]

theorem same_equivalence :
    Equivalence fun f g : { f : Frame // f.isFinite = true } => (f.1 == g.1) = true where
  refl f := (same_iff f.2).mpr rfl
  symm {f g} h := (same_iff g.2).mpr ((same_iff f.2).mp h).symm
  trans {f g _} h h' := (same_iff f.2).mpr (((same_iff f.2).mp h).trans ((same_iff g.2).mp h'))

theorem at?_canonical (f : Frame) (path : List Step) :
    f.canonical.at? path = (f.at? path).map Value.canonical := by
  rw [at?, canonical, ← Value.canonical_object]
  exact Value.at?_map _ path _

/-- Frames with an integer in the place of a double differ. -/
theorem canonical_ne_of_integer {path : List Step} {n : Number} {x : Binary64}
    (hn : n.isInteger = true) (hf : f.at? path = some (.scalar (.number n)))
    (hg : g.at? path = some (.scalar (.number (.float x)))) : f.canonical ≠ g.canonical := by
  intro h
  have hpath := congrArg (at? · path) h
  simp only [at?_canonical, hf, hg, Option.map_some, Option.some.injEq] at hpath
  exact Value.canonical_float_ne hn x hpath

theorem image_eq_of_same (h : (f == g) = true) : f.image = g.image := by
  change f.same g = true at h
  rw [same, Bool.and_eq_true, Bool.and_eq_true, beq_iff_eq, beq_iff_eq] at h
  exact h.1.2

/-! ## Fields -/

theorem isFinite_withFields (h : f.isFinite = true) (hcalls : ∀ c ∈ calls, c.2.isFinite = true) :
    (f.withFields calls).isFinite = true := by
  rw [withFields_eq, isFinite_iff]
  intro m hm
  rcases Members.mem_insertAll hm with hm | hm
  · exact hcalls m hm
  · exact isFinite_iff.mp h m hm

/-- On equal frames only the last value that is set under each key matters. -/
theorem same_withFields (hordered : f.fields.Ordered) (h : f.isFinite = true)
    (hcalls : ∀ c ∈ calls, c.2.isFinite = true) (hsame : (f == g) = true)
    (hlast : SameLast calls calls') : (f.withFields calls == g.withFields calls') = true := by
  have hcanonical : f.canonical = g.canonical := (same_iff h).mp hsame
  have hfields : f.canonical.fields = g.canonical.fields := congrArg Frame.fields hcanonical
  have hinserted := Members.canonical_insertAll_eq hordered hfields hlast
  rw [same_iff (isFinite_withFields h hcalls), withFields_eq, withFields_eq]
  calc
    _ = { f.canonical with fields := (f.fields.insertAll calls).canonical } := rfl
    _ = { g.canonical with fields := (g.fields.insertAll calls').canonical } := by
      rw [hcanonical, hinserted]

/-! ## Frames that come about -/

theorem isFinite_of_message {bytes : List UInt8} (h : ofMessage bytes = .ok f) :
    f.isFinite = true := by
  obtain ⟨reading, hread, rfl⟩ := exists_reading h
  refine isFinite_iff.mpr fun e he => ?_
  obtain ⟨m, hm, rfl⟩ := List.mem_map.mp (Draft.mem_entries_of_mem_fields he)
  exact isFinite_of_read hread m hm

theorem ordered_of_message {bytes : List UInt8} (h : ofMessage bytes = .ok f) :
    f.fields.Ordered := by
  obtain ⟨reading, -, rfl⟩ := exists_reading h
  exact Draft.ofEntries_ordered

end Frame

namespace Making

variable {m : Making} {f : Frame}

/-- However a frame comes about, its fields are in order, and its doubles are finite unless others
were attached as fields. -/
theorem ordered_and_isFinite (h : m.frame? = some f) : f.fields.Ordered ∧
    ((∀ v ∈ m.values, v.isFinite = true) → f.isFinite = true) := by
  induction m generalizing f with
  | blank =>
    cases h
    exact ⟨.nil, fun _ => rfl⟩
  | numbered n =>
    cases h
    exact ⟨.nil, fun _ => rfl⟩
  | message bytes =>
    have hmessage := ofMessage_of_message h
    exact ⟨Frame.ordered_of_message hmessage, fun _ => Frame.isFinite_of_message hmessage⟩
  | withImage m bytes ih =>
    obtain ⟨g, hg, rfl⟩ := Option.map_eq_some_iff.mp h
    have hfields : g.fields.Ordered ∧ _ := ih hg
    exact hfields
  | withField m key value ih =>
    obtain ⟨g, hg, rfl⟩ := Option.map_eq_some_iff.mp h
    obtain ⟨hordered, hfinite⟩ := ih hg
    refine ⟨hordered.insert key value, fun hvalues => Frame.isFinite_iff.mpr fun e he => ?_⟩
    obtain ⟨hvalue, hvalues⟩ := List.forall_mem_cons.mp hvalues
    rcases Members.mem_insert he with rfl | he
    · exact hvalue
    · exact Frame.isFinite_iff.mp (hfinite hvalues) e he

end Making

namespace Frame

/-- Equality is an equivalence on the frames whose doubles are finite. It overlooks the signs of
zeros, at every depth, and nothing else: not whether an image of no bytes is there, and nowhere the
difference between an integer and a double. Fields may be set on equal frames in any order and more
than once; as long as the last value under each key is the same, the frames stay equal.

This is so for all frames that come about without a double attached that is not finite. Messages
hold no such doubles, and a double that is made a value is finite. -/
theorem same_characterized :
    (Equivalence fun f g : { f : Frame // f.isFinite = true } => (f.1 == g.1) = true) ∧
    (∀ f g : Frame, f.isFinite = true → ((f == g) = true ↔ f.canonical = g.canonical)) ∧
    (∀ f g : Frame, f.image = none → g.image = some [] →
      (f == g) = false ∧ (g == f) = false) ∧
    (∀ (f g : Frame) (path : List Step) (n : Number) (x : Binary64), f.isFinite = true →
      g.isFinite = true → n.isInteger = true → f.at? path = some (.scalar (.number n)) →
      g.at? path = some (.scalar (.number (.float x))) → (f == g) = false ∧ (g == f) = false) ∧
    (∀ (f g : Frame) (calls calls' : List (String × Value)), f.fields.Ordered →
      f.isFinite = true → (∀ c ∈ calls, c.2.isFinite = true) → (f == g) = true →
      SameLast calls calls' → (f.withFields calls == g.withFields calls') = true) ∧
    (∀ (m : Making) (f : Frame), m.frame? = some f → f.fields.Ordered ∧
      ((∀ v ∈ m.values, v.isFinite = true) → f.isFinite = true)) ∧
    ∀ x : Binary64, (Value.ofFloat x).isFinite = true := by
  refine ⟨same_equivalence, fun f g => same_iff, fun f g hnone hnil => ?_,
    fun f g path n x hf hg hn hinteger hfloat => ?_,
    fun f g calls calls' hordered hf hcalls => same_withFields hordered hf hcalls,
    fun m f => Making.ordered_and_isFinite, Value.isFinite_ofFloat⟩
  · have hne : f.image ≠ g.image := by
      rw [hnone, hnil]
      exact nofun
    exact ⟨Bool.eq_false_iff.mpr fun h => hne (image_eq_of_same h),
      Bool.eq_false_iff.mpr fun h => hne (image_eq_of_same h).symm⟩
  · have hne : f.canonical ≠ g.canonical := canonical_ne_of_integer hn hinteger hfloat
    exact ⟨Bool.eq_false_iff.mpr fun h => hne ((same_iff hf).mp h),
      Bool.eq_false_iff.mpr fun h => hne ((same_iff hg).mp h).symm⟩

/-- Zeros of both signs deep inside leave frames equal, also when more fields are set in another
order and one of them twice. An integer in the place of the zero does not, and neither does an image
of no bytes. -/
theorem same_characterized_of_zeros :
    let value (n : Number) : Value := .list [.object [("x", .scalar (.number n))]]
    let f := (numbered 7).withField "roi" (value (.float .minusZero))
    let g := (numbered 7).withField "roi" (value (.float .zero))
    let h := (numbered 7).withField "roi" (value (.natural 0))
    let calls := [("a", value (.natural 1)), ("b", value (.float .zero)), ("a", value (.natural 2))]
    let calls' := [("b", value (.float .minusZero)), ("a", value (.natural 2))]
    (f == g) = true ∧ (f.withFields calls == g.withFields calls') = true ∧
      (h == g) = false ∧ (f == f.withImage []) = false := by
  intro value f g h calls calls'
  obtain ⟨-, hiff, himage, hinteger, hfields, hmade, -⟩ := same_characterized
  obtain ⟨hordered, hfinite⟩ :=
    hmade (.withField (.numbered 7) "roi" (value (.float .minusZero))) f rfl
  have hf : f.isFinite = true := hfinite (by decide)
  have hfg : (f == g) = true := (hiff f g hf).mpr rfl
  have hlast : SameLast calls calls' := by
    intro key
    by_cases ha : "a" = key
    · subst ha
      rfl
    by_cases hb : "b" = key
    · subst hb
      rfl
    · simp [calls, calls', valuesOf, ha, hb]
  obtain ⟨hhg, -⟩ := hinteger h g [.member "roi", .item 0, .member "x"] (.natural 0) .zero
    (by decide) (by decide) rfl rfl rfl
  obtain ⟨hempty, -⟩ := himage f (f.withImage []) rfl rfl
  exact ⟨hfg, hfields f g calls calls' hordered hf (by decide) hfg hlast, hhg, hempty⟩

end Frame

end SheddingQueue
