import SheddingQueue.Text.Count

/-!
# Which texts are counts

A count is some digits, with a plus sign before them if one likes, that stand for a number of 64
bits. `Count.read` looks at one digit after another and stops as soon as the number is too large;
`readDigits_eq` says what that comes to in terms of the number that the first digits stand for.
All that is read is a count (`read_eq_ok_iff`), and of any other text the first digits tell what is
wrong with it (`read_of_not_denotes`).
-/

namespace SheddingQueue.Count

/-- What is behind a plus sign, if a text begins with one. -/
def unsigned : List Char → List Char
  | '+' :: cs => cs
  | cs => cs

/-- Digits, with a plus sign before them if one likes, that stand for a number of 64 bits. -/
def Denotes (s : String) (n : Nat) : Prop :=
  ∃ digits, (s.toList = digits ∨ s.toList = '+' :: digits) ∧ digits ≠ [] ∧
    (∀ c ∈ digits, c.isDigit = true) ∧ Nat.ofDigitChars 10 digits 0 = n ∧ n < UInt64.size

/-- All the digits that a text begins with, behind its plus sign if there is one. -/
def leadingDigits (s : String) : List Char := (unsigned s.toList).takeWhile Char.isDigit

/-- The number that these digits stand for. -/
def leadingValue (s : String) : Nat := Nat.ofDigitChars 10 (leadingDigits s) 0

variable {c : Char} {cs : List Char} {s : String} {n : Nat}

/-! ## Digits -/

theorem digit?_of_isDigit (h : c.isDigit = true) : digit? c = some (c.toNat - '0'.toNat) :=
  if_pos h

theorem digit?_of_not_isDigit (h : c.isDigit = false) : digit? c = none :=
  if_neg (by rw [h]; exact Bool.false_ne_true)

theorem le_ofDigitChars (n : Nat) (cs : List Char) : n ≤ Nat.ofDigitChars 10 cs n := by
  induction cs generalizing n with
  | nil => exact Nat.le_refl n
  | cons c cs ih =>
    rw [Nat.ofDigitChars_cons]
    have hle := ih (10 * n + (c.toNat - '0'.toNat))
    omega

/-- Reading stops at the first digit with which the number is too large, or at what is no digit.
Which of the two it meets first depends on the digits before that only. -/
theorem readDigits_eq (hn : n < limit) (cs : List Char) :
    readDigits n cs =
      if limit ≤ Nat.ofDigitChars 10 (cs.takeWhile Char.isDigit) n then .error .tooLarge
      else if cs.all Char.isDigit then .ok (Nat.ofDigitChars 10 cs n)
      else .error .notDigit := by
  induction cs generalizing n with
  | nil => exact (if_neg (Nat.not_le.mpr hn)).symm
  | cons c cs ih =>
    rw [readDigits]
    cases hc : c.isDigit with
    | false =>
      rw [digit?_of_not_isDigit hc, List.takeWhile_cons_of_neg (by simp [hc]), List.all_cons, hc]
      exact (if_neg (Nat.not_le.mpr hn)).symm
    | true =>
      rw [digit?_of_isDigit hc, List.takeWhile_cons_of_pos hc, List.all_cons, hc,
        Nat.ofDigitChars_cons, Nat.ofDigitChars_cons, Nat.mul_comm 10 n, Bool.true_and]
      dsimp only
      split
      · next hlt => exact ih hlt
      · next hge =>
        -- what follows can only make it larger
        have hle := le_ofDigitChars (n * 10 + (c.toNat - '0'.toNat)) (cs.takeWhile Char.isDigit)
        rw [if_pos (Nat.le_trans (Nat.not_lt.mp hge) hle)]

/-! ## Texts -/

theorem takeWhile_of_all (h : cs.all Char.isDigit = true) : cs.takeWhile Char.isDigit = cs := by
  have h : ∀ c ∈ cs, c.isDigit = true := List.all_eq_true.mp h
  rw [← List.append_nil cs, List.takeWhile_append_of_pos h, List.takeWhile_nil]

theorem readChars_eq (h : cs ≠ []) :
    readChars cs =
      if limit ≤ Nat.ofDigitChars 10 ((unsigned cs).takeWhile Char.isDigit) 0 then
        .error .tooLarge
      else if unsigned cs ≠ [] ∧ (unsigned cs).all Char.isDigit then
        .ok (Nat.ofDigitChars 10 (unsigned cs) 0)
      else .error .notDigit := by
  have hdigits (ds : List Char) (hds : ds ≠ []) := readDigits_eq (n := 0) (by decide) ds
  unfold readChars unsigned
  split
  · exact absurd rfl h
  · rfl
  · next ds hds =>
    have hne : ds ≠ [] := fun hnil => hds (hnil ▸ rfl)
    simp [hdigits ds hne, hne]
  · simp_all

theorem unsigned_of_isDigit (h : ∀ c ∈ cs, c.isDigit = true) : unsigned cs = cs := by
  unfold unsigned
  split
  · exact absurd (h '+' List.mem_cons_self) (by decide)
  · rfl

/-- What is behind the plus sign decides whether a text is a count. -/
theorem denotes_iff : Denotes s n ↔
    (unsigned s.toList ≠ [] ∧ (unsigned s.toList).all Char.isDigit = true) ∧
      Nat.ofDigitChars 10 (unsigned s.toList) 0 = n ∧ n < limit := by
  constructor
  · rintro ⟨digits, hs, hne, hdigits, hvalue, hlt⟩
    have hunsigned : unsigned s.toList = digits := by
      rcases hs with hs | hs
      · rw [hs, unsigned_of_isDigit hdigits]
      · rw [hs, unsigned]
    rw [hunsigned]
    exact ⟨⟨hne, List.all_eq_true.mpr hdigits⟩, hvalue, hlt⟩
  · rintro ⟨⟨hne, hdigits⟩, hvalue, hlt⟩
    refine ⟨unsigned s.toList, ?_, hne, List.all_eq_true.mp hdigits, hvalue, hlt⟩
    unfold unsigned
    split
    · next hs => exact .inr hs
    · exact .inl rfl

/-- A number is read just if the text is that number. -/
theorem read_eq_ok_iff : read s = .ok n ↔ Denotes s n := by
  rw [denotes_iff, read]
  by_cases hs : s.toList = []
  · simp [hs, readChars, unsigned]
  rw [readChars_eq hs]
  by_cases hdigits : unsigned s.toList ≠ [] ∧ (unsigned s.toList).all Char.isDigit = true
  · rw [takeWhile_of_all hdigits.2, if_pos hdigits, and_iff_right hdigits]
    split
    · next hle =>
      have hne : ¬ (Nat.ofDigitChars 10 (unsigned s.toList) 0 = n ∧ n < limit) := by omega
      simp [hne]
    · next hlt =>
      rw [Except.ok.injEq]
      exact ⟨fun h => ⟨h, h ▸ Nat.not_le.mp hlt⟩, fun h => h.1⟩
  · rw [if_neg hdigits, iff_false_intro (fun h => hdigits h.1 : ¬ (_ ∧ _ ∧ _))]
    split <;> simp

/-- Any other text is empty, or its first digits are too large, or it is no number at all. -/
theorem read_of_not_denotes (h : ∀ n, ¬ Denotes s n) :
    read s = .error
      (if s = "" then .empty
      else if UInt64.size ≤ leadingValue s then .tooLarge
      else .notDigit) := by
  by_cases hs : s = ""
  · subst hs
    rfl
  have hsize : UInt64.size = limit := rfl
  rw [if_neg hs, hsize, read, readChars_eq (mt String.toList_eq_nil_iff.mp hs), ← leadingDigits,
    ← leadingValue]
  by_cases hlarge : limit ≤ leadingValue s
  · rw [if_pos hlarge, if_pos hlarge]
  · -- if there were digits only, the text would be a count
    have hdigits : ¬ (unsigned s.toList ≠ [] ∧ (unsigned s.toList).all Char.isDigit = true) := by
      intro hdigits
      rw [leadingValue, leadingDigits, takeWhile_of_all hdigits.2] at hlarge
      exact h _ (denotes_iff.mpr ⟨hdigits, rfl, Nat.not_le.mp hlarge⟩)
    rw [if_neg hlarge, if_neg hlarge, if_neg hdigits]

/-- The decimal digits of a number are that number. -/
theorem denotes_toString (n : UInt64) : Denotes (toString n.toNat) n.toNat := by
  have hdigits : (toString n.toNat).toList = Nat.toDigits 10 n.toNat := Nat.toList_repr
  exact ⟨_, .inl hdigits, Nat.toDigits_ne_nil,
    fun c => Nat.isDigit_of_mem_toDigits (by decide) (by decide), Nat.ofDigitChars_ten_toDigits,
    n.toNat_lt_size⟩

/-- A count begins with a digit or with a plus sign. -/
theorem Denotes.mem (h : Denotes s n) (hc : c ∈ s.toList) : c.isDigit = true ∨ c = '+' := by
  obtain ⟨digits, hs | hs, -, hdigits, -⟩ := h
  · exact .inl (hdigits c (hs ▸ hc))
  · rcases List.mem_cons.mp (hs ▸ hc) with rfl | hmem
    · exact .inr rfl
    · exact .inl (hdigits c hmem)

end SheddingQueue.Count
