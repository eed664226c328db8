import SheddingQueue.Json.Nesting
import SheddingQueue.Json.Reading
import SheddingQueue.Proofs.Json.Members
import SheddingQueue.Proofs.Json.Numerals

/-!
# What is read is finite

A number that is out of range is not read, so the doubles in a text are finite
(`Numeral.isFinite_read`). The reader makes values of the scalars in the text and of nothing else:
a test that they all pass is passed by every scalar in the members that are read
(`all_of_read`, by a step of the reader and then along the text).
-/

namespace SheddingQueue

namespace Binary64

variable {x : Binary64}

theorem isFinite_iff : x.isFinite = true ↔ x.magnitude < infinity := decide_eq_true_iff

theorem isFinite_ofUnits? {n d : Nat} (h : ofUnits? n d = some x) : x.isFinite = true := by
  rw [ofUnits?] at h
  split at h
  · next hlt =>
    obtain rfl := Option.some.inj h
    rw [isFinite_iff, magnitude, UInt64.toNat_ofNat']
    exact (Nat.mod_le _ _).trans_lt ((Nat.mod_le _ _).trans_lt hlt)
  · cases h

theorem magnitude_withSign (negative : Bool) : (x.withSign negative).magnitude = x.magnitude := by
  have hlt : x.magnitude < Nat.pow 2 63 := Nat.mod_lt _ (by decide)
  have hpow : Nat.pow 2 63 = 9223372036854775808 := by decide
  rw [hpow] at hlt
  rw [withSign, magnitude, UInt64.toNat_ofNat', hpow]
  cases negative <;> simp only [if_true, Bool.false_eq_true, if_false] <;> omega

theorem isFinite_withSign (negative : Bool) (h : x.isFinite = true) :
    (x.withSign negative).isFinite = true := by
  rw [isFinite_iff, magnitude_withSign]
  exact isFinite_iff.mp h

end Binary64

namespace Json

/-! ## Numbers -/

namespace Numeral

variable {x y : Binary64}

theorem isFinite_multiplied? {k : Nat} (hx : x.isFinite = true) (h : multiplied? x k = some y) :
    y.isFinite = true := by
  rw [multiplied?] at h
  split at h
  · obtain ⟨power, -, hmul⟩ := Option.bind_eq_some_iff.mp h
    exact Binary64.isFinite_ofUnits? hmul
  split at h
  · exact Option.some.inj h ▸ hx
  · cases h

theorem isFinite_lowered? (h : lowered? x = some y) : y.isFinite = true := by
  obtain ⟨power, -, hdiv⟩ := Option.bind_eq_some_iff.mp h
  exact Binary64.isFinite_ofUnits? hdiv

theorem isFinite_divided? {k : Nat} (hx : x.isFinite = true) (h : divided? x k = some y) :
    y.isFinite = true := by
  fun_induction divided? x k with
  | case1 x k hk =>
    obtain ⟨power, -, hdiv⟩ := Option.bind_eq_some_iff.mp h
    exact Binary64.isFinite_ofUnits? hdiv
  | case2 x k hk hzero => exact Option.some.inj h ▸ hx
  | case3 x k hk hzero ih =>
    obtain ⟨z, hz, h⟩ := Option.bind_eq_some_iff.mp h
    exact ih z (isFinite_lowered? hz) h

theorem isFinite_scaled? {e : Int} (hx : x.isFinite = true) (h : scaled? x e = some y) :
    y.isFinite = true := by
  rw [scaled?] at h
  split at h
  · exact isFinite_multiplied? hx h
  · exact isFinite_divided? hx h

theorem isFinite_integer {negative : Bool} {n : Nat} {m : Number}
    (h : integer negative n = some m) : m.isFinite = true := by
  rw [integer] at h
  split at h
  · cases h
    rfl
  split at h
  · cases h
    rfl
  · obtain ⟨x, hx, rfl⟩ := Option.map_eq_some_iff.mp h
    exact Binary64.isFinite_withSign true (Binary64.isFinite_ofUnits? hx)

theorem isFinite_real {negative : Bool} {significand : Nat} {exponent : Int} {m : Number}
    (h : real negative significand exponent = some m) : m.isFinite = true := by
  obtain ⟨s, hs, h⟩ := Option.bind_eq_some_iff.mp h
  obtain ⟨x, hx, h⟩ := Option.bind_eq_some_iff.mp h
  cases h
  exact Binary64.isFinite_withSign negative
    (isFinite_scaled? (Binary64.isFinite_ofUnits? hs) hx)

theorem isFinite_number {n : Numeral} {m : Number} (h : n.number = .ok m) :
    m.isFinite = true := by
  rw [number] at h
  dsimp only at h
  split at h
  · have h := inRange_eq_ok_iff.mp h
    split at h
    · exact isFinite_integer h
    · exact isFinite_real h
  · exact isFinite_real (inRange_eq_ok_iff.mp h)
  · -- an exponent that is too large leaves zero or nothing
    split at h
    · exact isFinite_real (inRange_eq_ok_iff.mp h)
    split at h
    · cases h
      exact Binary64.isFinite_withSign _ (by decide)
    · cases h

theorem isFinite_read {c stop : Cursor} {m : Number} (h : read c = .ok (m, stop)) :
    m.isFinite = true := by
  unfold read at h
  split at h
  all_goals
    obtain ⟨⟨numeral, stop'⟩, -, h⟩ := exists_of_bind_ok h
    dsimp only at h
    cases hnumber : numeral.number with
    | ok m' =>
      rw [hnumber] at h
      cases h
      exact isFinite_number hnumber
    | error unread =>
      rw [hnumber] at h
      cases h

end Numeral

/-! ## Tokens -/

/-- Every scalar among some tokens passes a test. -/
def ScalarsPass (p : Scalar → Bool) (xs : List Lexeme) : Prop :=
  ∀ x ∈ xs, ∀ s, x.token = .scalar s → p s = true

namespace Token

variable {s : Scalar} {c : Cursor} {stop : Option Cursor}

theorem isFinite_word {s' : Scalar} {letters : String} (hs' : s'.isFinite = true)
    (h : word s' letters c = (.scalar s, stop)) : s.isFinite = true := by
  unfold word at h
  split at h <;> cases h
  exact hs'

theorem isFinite_text (h : text c = (.scalar s, stop)) : s.isFinite = true := by
  unfold text at h
  split at h <;> cases h
  rfl

theorem isFinite_number (h : number c = (.scalar s, stop)) : s.isFinite = true := by
  unfold number at h
  split at h <;> cases h
  exact Numeral.isFinite_read ‹_›

theorem punctuation?_ne_scalar (b : UInt8) (s : Scalar) : punctuation? b ≠ some (.scalar s) := by
  unfold punctuation?
  repeat' split
  all_goals exact nofun

theorem isFinite_scan {offset : Nat} {b : UInt8} {rest : List UInt8}
    (h : scan offset b rest = (.scalar s, stop)) : s.isFinite = true := by
  unfold scan at h
  split at h
  · next token hb =>
    cases h
    exact absurd hb (punctuation?_ne_scalar b s)
  split at h
  · exact isFinite_text h
  split at h
  · exact isFinite_word rfl h
  split at h
  · exact isFinite_word rfl h
  split at h
  · exact isFinite_word rfl h
  split at h
  · exact isFinite_number h
  · cases h

end Token

theorem isFinite_lexemesFrom (offset : Nat) (bytes : List UInt8) :
    ScalarsPass Scalar.isFinite (lexemesFrom offset bytes) := by
  fun_induction lexemesFrom offset bytes with
  | case1 => exact nofun
  | case2 offset b rest hb ih => exact ih
  | case3 offset b rest hb token stop hscan ih =>
    rintro x hx s hs
    rcases List.mem_cons.mp hx with rfl | hx
    · subst hs
      exact Token.isFinite_scan hscan
    · exact ih x hx s hs
  | case4 offset b rest hb token hscan =>
    rintro x hx s hs
    obtain rfl := List.mem_singleton.mp hx
    subst hs
    exact Token.isFinite_scan hscan

/-! ## Readers -/

variable {p : Scalar → Bool}

def Container.Passes (p : Scalar → Bool) (c : Container) : Prop :=
  match c.content with
  | .list items => ∀ v ∈ items, v.all p = true
  | .object members _ => ∀ m ∈ members, m.value.all p = true

/-- Every scalar in what the reader holds passes a test. -/
def Reader.Passes (p : Scalar → Bool) : Reader → Prop
  | .within nest _ => ∀ c ∈ nest, c.Passes p
  | .complete members => ∀ m ∈ members, m.value.all p = true
  | .failed reading => ∀ m ∈ reading.members, m.value.all p = true

namespace Container.Passes

variable {c : Container}

theorem newList (start : Nat) : Passes p ⟨start, .list []⟩ := List.forall_mem_nil _

theorem newObject (start : Nat) : Passes p ⟨start, .object [] none⟩ := List.forall_mem_nil _

theorem value (h : c.Passes p) : c.value.all p = true := by
  obtain ⟨start, content⟩ := c
  cases content with
  | list items => exact Value.all_list.mpr fun v hv => h v (List.mem_reverse.mp hv)
  | object members key =>
    refine Value.all_object.mpr fun e he => ?_
    obtain ⟨m, hm, rfl⟩ := List.mem_map.mp (Members.mem_ofList he)
    exact h m (List.mem_reverse.mp hm)

theorem members (h : c.Passes p) : ∀ m ∈ c.members, m.value.all p = true := by
  obtain ⟨start, content⟩ := c
  cases content with
  | list items => exact nofun
  | object members key => exact h

theorem give (h : c.Passes p) {v : Value} (hv : v.all p = true) (complaint : Nat) :
    (c.give v complaint).Passes p := by
  obtain ⟨start, content⟩ := c
  cases content with
  | list items => exact List.forall_mem_cons.mpr ⟨hv, h⟩
  | object members key =>
    cases key with
    | none => exact h
    | some key => exact List.forall_mem_cons.mpr ⟨hv, h⟩

theorem setKey (h : c.Passes p) (key : Key) : (c.setKey key).Passes p := by
  obtain ⟨start, content⟩ := c
  cases content <;> exact h

end Container.Passes

theorem Container.forall_passes_setKey {top : Container} {below : List Container}
    (h : ∀ c ∈ top :: below, c.Passes p) (key : Key) :
    ∀ c ∈ top.setKey key :: below, c.Passes p := by
  obtain ⟨htop, hbelow⟩ := List.forall_mem_cons.mp h
  exact List.forall_mem_cons.mpr ⟨htop.setKey key, hbelow⟩

theorem Reading.all_ofNest {nest : List Container} (h : ∀ c ∈ nest, c.Passes p)
    (fault : Option Fault) : ∀ m ∈ (ofNest fault nest).members, m.value.all p = true := by
  fun_induction ofNest fault nest with
  | case1 => exact nofun
  | case2 outer =>
    intro m hm
    exact (h outer List.mem_cons_self).members m (List.mem_reverse.mp hm)
  | case3 inner outer =>
    intro m hm
    exact (h outer (by simp)).members m (List.mem_reverse.mp hm)
  | case4 inner nest hempty hlong ih => exact ih fun c hc => h c (List.mem_cons_of_mem _ hc)

namespace Reader

variable {x : Lexeme}

section

variable {nest : List Container} (h : ∀ c ∈ nest, c.Passes p)
include h

theorem passes_fail (cause : Cause) (offset : Nat) : (fail nest cause offset).Passes p :=
  Reading.all_ofNest h _

theorem passes_give {v : Value} (hv : v.all p = true) (complaint : Nat) :
    (give v complaint nest).Passes p := by
  cases nest with
  | nil => exact nofun
  | cons top below =>
    obtain ⟨htop, hbelow⟩ := List.forall_mem_cons.mp h
    exact List.forall_mem_cons.mpr ⟨htop.give hv complaint, hbelow⟩

theorem passes_close : (close nest).Passes p := by
  match nest with
  | [] => exact nofun
  | [outer] =>
    intro m hm
    exact (h outer List.mem_cons_self).members m (List.mem_reverse.mp hm)
  | top :: next :: below =>
    obtain ⟨htop, hbelow⟩ := List.forall_mem_cons.mp h
    exact passes_give hbelow htop.value top.start

theorem passes_enter {content : Content} (hcontent : Container.Passes p ⟨x.start, content⟩)
    (expecting : Expecting) : (enter nest x content expecting).Passes p := by
  rw [enter]
  split
  · exact List.forall_mem_cons.mpr ⟨hcontent, h⟩
  · exact passes_fail h _ _

theorem passes_value (hx : ∀ s, x.token = .scalar s → p s = true) :
    (value nest x).Passes p := by
  unfold value
  split
  · next s hs =>
    have hpass : (Value.scalar s).all p = true := hx s hs
    exact passes_give h hpass _
  · exact passes_enter h (.newObject x.start) _
  · exact passes_enter h (.newList x.start) _
  · exact Reading.all_ofNest h _
  · exact Reading.all_ofNest h _
  · exact passes_fail h _ _

theorem passes_key : (key nest x).Passes p := by
  unfold key
  split
  · exact h
  · exact Reading.all_ofNest h _
  · exact passes_fail h _ _

theorem passes_colon (name : String) : (colon nest name x).Passes p := by
  unfold colon
  cases nest with
  | nil =>
    dsimp only
    split
    · exact h
    · exact passes_fail h _ _
  | cons top below =>
    dsimp only
    split
    · exact Container.forall_passes_setKey h _
    · exact passes_fail (Container.forall_passes_setKey h _) _ _

theorem passes_separator : (separator nest x).Passes p := by
  unfold separator
  split
  all_goals
    split
    · exact h
    · exact passes_close h
    · exact passes_fail h _ _

end

/-- A step adds nothing but the scalar that the reader is fed. -/
theorem passes_step {r : Reader} (h : r.Passes p) (hx : ∀ s, x.token = .scalar s → p s = true) :
    (r.step x).Passes p := by
  cases r with
  | failed reading => exact h
  | complete members => exact h
  | within nest expecting =>
    cases expecting with
    | firstItem =>
      rw [step]
      split
      · exact passes_close h
      · exact passes_value h hx
    | item =>
      rw [step]
      split
      · exact passes_fail h _ _
      · exact passes_value h hx
    | value => exact passes_value h hx
    | firstKey =>
      rw [step]
      split
      · exact passes_close h
      · exact passes_key h
    | key =>
      rw [step]
      split
      · exact passes_fail h _ _
      · exact passes_key h
    | colon name => exact passes_colon h name
    | separator => exact passes_separator h

theorem passes_foldl {r : Reader} {xs : List Lexeme} (h : r.Passes p) (hxs : ScalarsPass p xs) :
    (xs.foldl step r).Passes p := by
  induction xs generalizing r with
  | nil => exact h
  | cons x xs ih =>
    obtain ⟨hx, hxs⟩ := List.forall_mem_cons.mp hxs
    exact ih (passes_step h hx) hxs

theorem all_finish {r : Reader} (h : r.Passes p) (offset : Nat) :
    ∀ m ∈ (r.finish offset).members, m.value.all p = true := by
  cases r with
  | failed reading => exact h
  | complete members => exact h
  | within nest expecting =>
    unfold finish
    dsimp only
    split
    · -- the key that has no value yet is kept for complaints
      next top below name =>
      exact Reading.all_ofNest (Container.forall_passes_setKey h ⟨name, offset⟩) _
    · exact Reading.all_ofNest h _

end Reader

/-- The values of the members that are read are made of the scalars in the text. -/
theorem all_of_read {bytes : List UInt8} {reading : Reading}
    (h : Document.read bytes = .object reading) (hpass : ScalarsPass p (lexemes bytes)) :
    ∀ m ∈ reading.members, m.value.all p = true := by
  rw [Document.read] at h
  cases hlexemes : lexemes bytes with
  | nil =>
    rw [hlexemes] at h
    cases h
  | cons x rest =>
    rw [hlexemes] at h hpass
    dsimp only at h
    split at h <;> cases h
    have hstart : Reader.Passes p (.within [⟨x.start, .object [] none⟩] .firstKey) :=
      List.forall_mem_singleton.mpr (.newObject x.start)
    exact Reader.all_finish (Reader.passes_foldl hstart (List.forall_mem_cons.mp hpass).2) _

theorem isFinite_of_read {bytes : List UInt8} {reading : Reading}
    (h : Document.read bytes = .object reading) :
    ∀ m ∈ reading.members, m.value.isFinite = true :=
  all_of_read h (isFinite_lexemesFrom 0 bytes)

end Json

end SheddingQueue
