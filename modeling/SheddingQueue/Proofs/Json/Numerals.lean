import SheddingQueue.Json.Numeral
import SheddingQueue.Text.Utf8

/-!
# Numbers that are read as they were written

The decimal digits of a number that fits 64 bits are read as that number, whatever follows them,
as long as it does not go on like a number. All other numbers are read as something else than
naturals (`Numeral.number_eq_natural_iff`). `Numeral.valueFrom` is the value of digits without a
limit; `Numeral.collect` agrees with it below the limit.
-/

namespace SheddingQueue.Json

/-- Whether a numeral ends in front of some bytes. -/
def EndsNumeral (rest : List UInt8) : Prop :=
  ∀ b, rest.head? = some b → isDigit b = false ∧ b ≠ 0x2e ∧ b ≠ 0x65 ∧ b ≠ 0x45

namespace Numeral

/-- The number that is written with the digits `ds` behind those of `n`. -/
def valueFrom (n : Nat) (ds : List Nat) : Nat := ds.foldl (fun n d => n * 10 + d) n

theorem le_valueFrom (n : Nat) (ds : List Nat) : n ≤ valueFrom n ds := by
  induction ds generalizing n with
  | nil => exact Nat.le_refl n
  | cons d ds ih =>
    have hle : n * 10 + d ≤ valueFrom n (d :: ds) := ih (n * 10 + d)
    omega

/-- If the number stays below the limit, no digit is left over. -/
theorem collect_of_lt {limit n : Nat} {ds : List Nat} (h : valueFrom n ds < limit) :
    collect limit n ds = (valueFrom n ds, 0) := by
  induction ds generalizing n with
  | nil => rfl
  | cons d ds ih =>
    have hle : n * 10 + d ≤ valueFrom n (d :: ds) := le_valueFrom (n * 10 + d) ds
    rw [collect, if_pos (by omega)]
    exact ih h

/-- If the number reaches the limit, some digit is left over. -/
theorem collect_of_le {limit n : Nat} {ds : List Nat} (hn : n < limit)
    (h : limit ≤ valueFrom n ds) : (collect limit n ds).2 ≠ 0 := by
  induction ds generalizing n with
  | nil => exact absurd h (Nat.not_le.mpr hn)
  | cons d ds ih =>
    rw [collect]
    split
    · next hlt => exact ih hlt h
    · exact Nat.succ_ne_zero ds.length

theorem digits_append (offset : Nat) {bytes rest : List UInt8}
    (hbytes : ∀ b ∈ bytes, isDigit b = true) (hrest : EndsNumeral rest) :
    let c : Cursor := ⟨offset, bytes ++ rest⟩
    c.digits = bytes.map (fun b => b.toNat - 0x30) ∧
      c.afterDigits = ⟨offset + bytes.length, rest⟩ := by
  have htake : (bytes ++ rest).takeWhile isDigit = bytes := by
    rw [List.takeWhile_append_of_pos hbytes]
    cases rest with
    | nil => simp
    | cons b rest => simp [(hrest b rfl).1]
  have hdrop : (bytes ++ rest).dropWhile isDigit = rest := by
    rw [List.dropWhile_append_of_pos hbytes]
    cases rest with
    | nil => rfl
    | cons b rest => simp [(hrest b rfl).1]
  exact ⟨by rw [Cursor.digits, htake], by rw [Cursor.afterDigits, htake, hdrop]⟩

theorem readWhole_digits (offset : Nat) {bytes rest : List UInt8} (hne : bytes ≠ [])
    (hbytes : ∀ b ∈ bytes, isDigit b = true) (hzero : ∀ more, bytes = 0x30 :: more → more = [])
    (hrest : EndsNumeral rest) :
    readWhole ⟨offset, bytes ++ rest⟩ =
      .ok (bytes.map (fun b => b.toNat - 0x30), ⟨offset + bytes.length, rest⟩) := by
  obtain ⟨hdigits, hafter⟩ := digits_append offset hbytes hrest
  cases bytes with
  | nil => exact absurd rfl hne
  | cons b bytes =>
    have hb : isDigit b = true := hbytes b List.mem_cons_self
    by_cases h0 : b = 0x30
    · subst h0
      obtain rfl := hzero bytes rfl
      obtain ⟨hnone, -⟩ := @digits_append (offset + 1) [] rest nofun hrest
      simp only [readWhole, List.singleton_append, hb, Bool.not_true, Bool.false_eq_true, if_false,
        if_true]
      rw [List.nil_append] at hnone
      rw [hnone]
      rfl
    · simp only [readWhole, List.cons_append, hb, Bool.not_true, Bool.false_eq_true, if_false, h0]
      rw [List.cons_append] at hdigits hafter
      rw [hdigits, hafter]

theorem readFraction_ends {c : Cursor} (h : EndsNumeral c.rest) :
    readFraction c = .ok (none, c) := by
  unfold readFraction
  split
  · rename_i hrest
    exact absurd rfl (h 0x2e (by rw [hrest]; rfl)).2.1
  · rfl

theorem readExponent_ends {c : Cursor} (h : EndsNumeral c.rest) :
    readExponent c = .ok (none, c) := by
  unfold readExponent
  split
  · rfl
  · rename_i b rest hrest
    obtain ⟨-, -, he, hE⟩ := h b (by rw [hrest]; rfl)
    rw [if_neg (not_or.mpr ⟨he, hE⟩)]

/-- A number below the limit is written without a zero in front. -/
theorem eq_nil_of_toDigits {n : Nat} {ds : List Char} (h : Nat.toDigits 10 n = '0' :: ds) :
    ds = [] := by
  induction n using Nat.base_induction 10 (by decide) generalizing ds with
  | single m hm =>
    rw [Nat.toDigits_of_lt_base hm] at h
    exact (List.cons.inj h).2.symm
  | digit m k hk hm ih =>
    rw [← Nat.toDigits_append_toDigits (by decide) hm hk] at h
    cases hds : Nat.toDigits 10 m with
    | nil => exact absurd hds Nat.toDigits_ne_nil
    | cons c cs =>
      rw [hds, List.cons_append] at h
      obtain ⟨rfl, -⟩ := List.cons.inj h
      -- the part in front would be zero, and then there would be no such part
      obtain rfl := ih hds
      have hvalue := Nat.ofDigitChars_ten_toDigits (n := m)
      rw [hds] at hvalue
      exact absurd hvalue.symm (by simp [Nat.ofDigitChars_cons]; omega)

theorem toNat_of_isDigit {c : Char} (h : c.isDigit = true) :
    48 ≤ c.toNat ∧ c.toNat ≤ 57 ∧ (UInt8.ofNat c.toNat).toNat = c.toNat := by
  obtain ⟨hlow, hhigh⟩ : 48 ≤ c.toNat ∧ c.toNat ≤ 57 := Char.isDigit_iff_toNat.mp h
  refine ⟨hlow, hhigh, ?_⟩
  rw [UInt8.toNat_ofNat']
  omega

/-- A number as bytes: its digits. -/
theorem encode_toString (n : Nat) :
    Utf8.encode (toString n) = (Nat.toDigits 10 n).map fun c => UInt8.ofNat c.toNat := by
  rw [Nat.toString_eq_repr, Utf8.encode_ascii, Nat.toList_repr]
  intro c hc
  rw [Nat.toList_repr] at hc
  obtain ⟨-, hhigh, -⟩ := toNat_of_isDigit (Nat.isDigit_of_mem_toDigits (by decide) (by decide) hc)
  omega

theorem isDigit_of_mem_encode {n : Nat} {b : UInt8} (hb : b ∈ Utf8.encode (toString n)) :
    isDigit b = true := by
  rw [encode_toString] at hb
  obtain ⟨c, hc, rfl⟩ := List.mem_map.mp hb
  obtain ⟨hlow, hhigh, htoNat⟩ :=
    toNat_of_isDigit (Nat.isDigit_of_mem_toDigits (by decide) (by decide) hc)
  rw [isDigit, Bool.and_eq_true, decide_eq_true_iff, decide_eq_true_iff, UInt8.le_iff_toNat_le,
    UInt8.le_iff_toNat_le, htoNat]
  exact ⟨hlow, hhigh⟩

theorem valueFrom_digitChars {cs : List Char} (h : ∀ c ∈ cs, c.isDigit = true) (n : Nat) :
    valueFrom n (cs.map fun c => (UInt8.ofNat c.toNat).toNat - 0x30) =
      Nat.ofDigitChars 10 cs n := by
  induction cs generalizing n with
  | nil => rfl
  | cons c cs ih =>
    obtain ⟨-, -, htoNat⟩ := toNat_of_isDigit (h c List.mem_cons_self)
    rw [Nat.ofDigitChars_cons, ← ih fun c hmem => h c (List.mem_cons_of_mem _ hmem), Nat.mul_comm]
    rw [List.map_cons, htoNat]
    rfl

theorem valueFrom_encode (n : Nat) :
    valueFrom 0 ((Utf8.encode (toString n)).map fun b => b.toNat - 0x30) = n := by
  rw [encode_toString, List.map_map]
  refine Eq.trans ?_ (Nat.ofDigitChars_ten_toDigits (n := n))
  exact valueFrom_digitChars (fun c => Nat.isDigit_of_mem_toDigits (by decide) (by decide)) 0

theorem encode_ne_nil (n : Nat) : Utf8.encode (toString n) ≠ [] := by
  rw [encode_toString, Ne, List.map_eq_nil_iff]
  exact Nat.toDigits_ne_nil

/-- Only zero itself begins with a zero. -/
theorem eq_nil_of_encode {n : Nat} {more : List UInt8}
    (h : Utf8.encode (toString n) = 0x30 :: more) : more = [] := by
  rw [encode_toString] at h
  obtain ⟨c, cs, hcs, hc, rfl⟩ := List.map_eq_cons_iff.mp h
  have hmem : c ∈ Nat.toDigits 10 n := by
    rw [hcs]
    exact List.mem_cons_self
  obtain ⟨-, -, htoNat⟩ :=
    toNat_of_isDigit (Nat.isDigit_of_mem_toDigits (by decide) (by decide) hmem)
  rw [hc] at htoNat
  obtain rfl : c = '0' := Char.toNat_inj.mp htoNat.symm
  rw [eq_nil_of_toDigits hcs]
  rfl

theorem readMagnitude_digits (n offset : Nat) {rest : List UInt8} (hrest : EndsNumeral rest) :
    readMagnitude false ⟨offset, Utf8.encode (toString n) ++ rest⟩ =
      .ok (⟨false, (Utf8.encode (toString n)).map fun b => b.toNat - 0x30, none, none⟩,
        ⟨offset + (Utf8.encode (toString n)).length, rest⟩) := by
  have hwhole := readWhole_digits offset (encode_ne_nil n) (fun b => isDigit_of_mem_encode)
    (fun more => eq_nil_of_encode) hrest
  simp only [readMagnitude, hwhole, bind, Except.bind, readFraction_ends (c := ⟨_, rest⟩) hrest,
    readExponent_ends (c := ⟨_, rest⟩) hrest]
  rfl

theorem number_digits (n : UInt64) :
    number ⟨false, (Utf8.encode (toString n.toNat)).map fun b => b.toNat - 0x30, none, none⟩ =
      .ok (.natural n) := by
  have hlimit : valueFrom 0 ((Utf8.encode (toString n.toNat)).map fun b => b.toNat - 0x30) <
      Nat.pow 2 64 := by
    rw [valueFrom_encode]
    exact n.toNat_lt
  rw [number, collect_of_lt hlimit, valueFrom_encode]
  simp [integer, Option.elim]

theorem integer_eq_natural_iff {negative : Bool} {m : Nat} {n : UInt64} :
    integer negative m = some (.natural n) ↔ negative = false ∧ UInt64.ofNat m = n := by
  cases negative with
  | false => simp [integer]
  | true =>
    rw [integer]
    constructor
    · intro h
      rw [if_neg (by decide)] at h
      split at h
      · cases h
      · obtain ⟨x, -, hx⟩ := Option.map_eq_some_iff.mp h
        cases hx
    · rintro ⟨h, -⟩
      cases h

/-- What a power of ten goes into is a double. -/
theorem real_ne_natural (negative : Bool) (significand : Nat) (exponent : Int) (n : UInt64) :
    real negative significand exponent ≠ some (.natural n) := by
  intro h
  obtain ⟨s, -, h⟩ := Option.bind_eq_some_iff.mp h
  obtain ⟨x, -, h⟩ := Option.bind_eq_some_iff.mp h
  cases h

/-- Nothing but a value that is out of range is refused. -/
theorem inRange_eq_ok_iff {y : Option Number} {m : Number} :
    (y.elim (.error 0) .ok : Except Nat Number) = .ok m ↔ y = some m := by
  cases y <;> simp

/-- A number is a natural one if it is written without a sign, a fraction and an exponent and fits
64 bits. -/
theorem number_eq_natural_iff (x : Numeral) (n : UInt64) : x.number = .ok (.natural n) ↔
    x.negative = false ∧ x.fraction = none ∧ x.exponent = none ∧
      valueFrom 0 x.whole = n.toNat := by
  obtain ⟨negative, whole, fraction, exponent⟩ := x
  rw [number]
  match fraction, exponent with
  | none, none =>
    dsimp only
    rw [inRange_eq_ok_iff]
    by_cases hlimit : valueFrom 0 whole < Nat.pow 2 64
    · have hsame : UInt64.ofNat (valueFrom 0 whole) = n ↔ valueFrom 0 whole = n.toNat := by
        rw [← UInt64.toNat_inj, UInt64.toNat_ofNat_of_lt' hlimit]
      rw [collect_of_lt hlimit, if_pos rfl, integer_eq_natural_iff, hsame]
      simp
    · have hover := collect_of_le (Nat.two_pow_pos 64) (Nat.not_lt.mp hlimit)
      rw [if_neg hover]
      have hbig : valueFrom 0 whole ≠ n.toNat := fun h => hlimit (h ▸ n.toNat_lt)
      simp [real_ne_natural, hbig]
  | some fraction, none =>
    dsimp only
    rw [inRange_eq_ok_iff]
    simp [real_ne_natural]
  | fraction, some (lowers, digits) =>
    simp only [reduceCtorEq, false_and, and_false, iff_false]
    intro h
    -- an exponent that is too large leaves zero or nothing, any other a double
    cases fraction
    all_goals
      split at h
      · exact real_ne_natural _ _ _ _ (inRange_eq_ok_iff.mp h)
      · split at h <;> cases h

/-- A number that fits 64 bits is read as it was written. -/
theorem read_natural (n : UInt64) (offset : Nat) {rest : List UInt8} (hrest : EndsNumeral rest) :
    read ⟨offset, Utf8.encode (toString n.toNat) ++ rest⟩ =
      .ok (.natural n, ⟨offset + (Utf8.encode (toString n.toNat)).length, rest⟩) := by
  have hmagnitude := readMagnitude_digits n.toNat offset hrest
  have hnumber := number_digits n
  have hdigit (b : UInt8) (hb : b ∈ Utf8.encode (toString n.toNat)) := isDigit_of_mem_encode hb
  obtain ⟨b, more, hbytes⟩ := List.exists_cons_of_ne_nil (encode_ne_nil n.toNat)
  rw [hbytes] at hmagnitude hnumber hdigit ⊢
  unfold read
  split
  · -- a digit is no minus
    rename_i hminus
    have hb := hdigit b List.mem_cons_self
    rw [(List.cons.inj hminus).1] at hb
    exact absurd hb (by decide)
  · simp only [hmagnitude, bind, Except.bind, hnumber]
    rfl

end Numeral

end SheddingQueue.Json
