import Mathlib.Data.List.Forall2
import SheddingQueue.Options
import SheddingQueue.Proofs.Text.Count

/-!
# Which texts are thresholds

A threshold is the word `half` in small or capital letters, or a count. All other texts are
refused for the same reasons as if they had been meant as counts, so the first digits of a text
decide which reason is given (`readThreshold_characterized`).
-/

namespace SheddingQueue.Options

/-- The word `half`, each of its letters small or capital. -/
def IsHalf (s : String) : Prop :=
  List.Forall₂ (fun c letters => c ∈ letters) s.toList
    [['h', 'H'], ['a', 'A'], ['l', 'L'], ['f', 'F']]

variable {s : String} {n : Nat}

theorem toLower_eq_iff {c small capital : Char} (hsmall : small.toLower = small)
    (hcapital : capital.toLower = small)
    (hval : capital.val + ('a'.val - 'A'.val) = small.val) :
    c.toLower = small ↔ c ∈ [small, capital] := by
  rw [List.mem_pair]
  constructor
  · intro h
    unfold Char.toLower at h
    split at h
    · have hsum : c.val + ('a'.val - 'A'.val) = capital.val + ('a'.val - 'A'.val) :=
        (congrArg Char.val h).trans hval.symm
      exact .inr (Char.ext (UInt32.add_left_inj _ |>.mp hsum))
    · exact .inl h
  · rintro (rfl | rfl)
    · exact hsmall
    · exact hcapital

theorem isHalf_iff : IsHalf s ↔ s.toList.map Char.toLower = ['h', 'a', 'l', 'f'] := by
  have hh (c : Char) : c.toLower = 'h' ↔ c ∈ ['h', 'H'] := toLower_eq_iff rfl rfl rfl
  have ha (c : Char) : c.toLower = 'a' ↔ c ∈ ['a', 'A'] := toLower_eq_iff rfl rfl rfl
  have hl (c : Char) : c.toLower = 'l' ↔ c ∈ ['l', 'L'] := toLower_eq_iff rfl rfl rfl
  have hf (c : Char) : c.toLower = 'f' ↔ c ∈ ['f', 'F'] := toLower_eq_iff rfl rfl rfl
  rw [← List.forall₂_eq_eq_eq, List.forall₂_map_left_iff]
  simp only [IsHalf, List.forall₂_cons_right_iff, List.forall₂_nil_right_iff, hh, ha, hl, hf]

theorem IsHalf.mem {c : Char} (h : IsHalf s) (hc : c ∈ s.toList) :
    c.toLower ∈ ['h', 'a', 'l', 'f'] :=
  isHalf_iff.mp h ▸ List.mem_map_of_mem hc

/-- No letter is part of a count. -/
theorem not_denotes_of_isHalf (h : IsHalf s) (n : Nat) : ¬ Count.Denotes s n := by
  intro hcount
  obtain ⟨c, cs, hc, -, hs⟩ := List.forall₂_cons_right_iff.mp h
  have hletter : c.isDigit = false ∧ c ≠ '+' := by
    rcases List.mem_pair.mp hc with rfl | rfl
    · decide
    · decide
  rcases hcount.mem (hs ▸ List.mem_cons_self) with hdigit | hplus
  · cases hletter.1.symm.trans hdigit
  · exact hletter.2 hplus

theorem readThreshold_of_not_isHalf (h : ¬ IsHalf s) :
    readThreshold s = (Count.read s).map .fixed := if_neg (mt isHalf_iff.mpr h)

theorem readThreshold_eq_half_iff : readThreshold s = .ok .half ↔ IsHalf s := by
  constructor
  · intro h
    by_contra hnot
    rw [readThreshold_of_not_isHalf hnot] at h
    cases hread : Count.read s <;> rw [hread] at h <;> cases h
  · intro h
    exact if_pos (isHalf_iff.mp h)

theorem readThreshold_eq_fixed_iff : readThreshold s = .ok (.fixed n) ↔ Count.Denotes s n := by
  by_cases hhalf : IsHalf s
  · have hread : readThreshold s = .ok .half := readThreshold_eq_half_iff.mpr hhalf
    simp [hread, not_denotes_of_isHalf hhalf]
  · rw [readThreshold_of_not_isHalf hhalf, ← Count.read_eq_ok_iff]
    cases Count.read s <;> simp [Except.map]

theorem readThreshold_of_neither (hhalf : ¬ IsHalf s) (hcount : ∀ n, ¬ Count.Denotes s n) :
    readThreshold s = .error
      (if s = "" then .empty
      else if UInt64.size ≤ Count.leadingValue s then .tooLarge
      else .notDigit) := by
  rw [readThreshold_of_not_isHalf hhalf, Count.read_of_not_denotes hcount]
  rfl

/-- A sign or a space within a text leaves it no threshold. -/
theorem readThreshold_of_mem {c : Char} (hc : c ∈ s.toList) (hsign : c = '-' ∨ c = ' ')
    (hlt : Count.leadingValue s < UInt64.size) : readThreshold s = .error .notDigit := by
  have hhalf : ¬ IsHalf s := by
    intro h
    rcases hsign with rfl | rfl <;> exact absurd (h.mem hc) (by decide)
  have hcount (n : Nat) : ¬ Count.Denotes s n := by
    intro h
    rcases hsign with rfl | rfl <;> exact absurd (h.mem hc) (by decide)
  have hne : s ≠ "" := by
    rintro rfl
    cases hc
  rw [readThreshold_of_neither hhalf hcount, if_neg hne, if_neg (Nat.not_le.mpr hlt)]

/-- A threshold is the word `half` or a count, and all other texts are refused: the empty one as
such, one whose first digits stand for more than 64 bits as too large, and any other as no
number. Whatever is written in decimal digits is read as that number. -/
theorem readThreshold_characterized :
    (∀ s, readThreshold s = .ok .half ↔ IsHalf s) ∧
    (∀ s n, readThreshold s = .ok (.fixed n) ↔ Count.Denotes s n) ∧
    (∀ s, ¬ IsHalf s → (∀ n, ¬ Count.Denotes s n) → ∃ fault, readThreshold s = .error fault ∧
      let reason := fault.message
      (ValueFault.threshold fault).message = "expected a frame count or `half`: " ++ reason ∧
        (reason = "cannot parse integer from empty string" ↔ s = "") ∧
        (reason = "number too large to fit in target type" ↔
          UInt64.size ≤ Count.leadingValue s) ∧
        (reason = "invalid digit found in string" ↔
          s ≠ "" ∧ Count.leadingValue s < UInt64.size)) ∧
    (readThreshold "+" = .error .notDigit ∧ readThreshold "-" = .error .notDigit ∧
      ∀ s, ∀ c ∈ s.toList, c = '-' ∨ c = ' ' → Count.leadingValue s < UInt64.size →
        readThreshold s = .error .notDigit) ∧
    ∀ n : UInt64, readThreshold (toString n.toNat) = .ok (.fixed n.toNat) := by
  refine ⟨fun s => readThreshold_eq_half_iff, fun s n => readThreshold_eq_fixed_iff,
    fun s hhalf hcount => ⟨_, readThreshold_of_neither hhalf hcount, rfl, ?_⟩,
    ⟨rfl, rfl, fun s c hc hsign hlt => readThreshold_of_mem hc hsign hlt⟩,
    fun n => readThreshold_eq_fixed_iff.mpr (Count.denotes_toString n)⟩
  by_cases hs : s = ""
  · subst hs
    decide
  · rw [if_neg hs]
    by_cases hlarge : UInt64.size ≤ Count.leadingValue s
    · simp [hs, hlarge, Count.Fault.message]
    · simp [hs, hlarge, Count.Fault.message, Nat.not_le.mp hlarge]

/-- Behind the digits there is a sign, but the digits alone are too large already. -/
theorem readThreshold_too_large :
    let s := "18446744073709551616-"
    ¬ IsHalf s ∧ (∀ n, ¬ Count.Denotes s n) ∧ ∃ fault, readThreshold s = .error fault ∧
      fault.message = "number too large to fit in target type" := by
  intro s
  have hhalf : ¬ IsHalf s := mt isHalf_iff.mp (by decide)
  have hcount (n : Nat) : ¬ Count.Denotes s n := by
    intro h
    have hsign : '-' ∈ s.toList := by decide
    exact absurd (h.mem hsign) (by decide)
  have hlarge : UInt64.size ≤ Count.leadingValue s := by decide
  obtain ⟨fault, hread, -, -, hreason, -⟩ := readThreshold_characterized.2.2.1 s hhalf hcount
  exact ⟨hhalf, hcount, fault, hread, hreason.mpr hlarge⟩

end SheddingQueue.Options
