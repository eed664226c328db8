/-!
# UTF-8

`encode` writes characters as bytes. `decode` reads characters for as long as the bytes are
well formed and returns what is left: an unfinished or overlong form, a surrogate, a number that
is no code point, or a byte that starts nothing.
-/

namespace SheddingQueue.Utf8

def encode (s : String) : List UInt8 := s.toList.flatMap String.utf8EncodeChar

/-- What the first byte of a form says. -/
structure Lead where
  /-- How many bytes follow. -/
  following : Nat
  /-- The leading bits of the code point. -/
  bits : Nat
  /-- The least code point that needs this form. -/
  least : Nat

def lead? (b : UInt8) : Option Lead :=
  let n := b.toNat
  if n < 0x80 then some ⟨0, n, 0⟩
  else if n < 0xc0 then none
  else if n < 0xe0 then some ⟨1, n % 32, 0x80⟩
  else if n < 0xf0 then some ⟨2, n % 16, 0x800⟩
  else if n < 0xf8 then some ⟨3, n % 8, 0x10000⟩
  else none

/-- Append the six bits of each of `k` continuation bytes. -/
def continued? : (k : Nat) → (bits : Nat) → List UInt8 → Option (Nat × List UInt8)
  | 0, bits, rest => some (bits, rest)
  | _ + 1, _, [] => none
  | k + 1, bits, b :: rest =>
    if b.toNat / 64 = 2 then continued? k (bits * 64 + b.toNat % 64) rest else none

/-- The first character and the bytes after it. -/
def next? : List UInt8 → Option (Char × List UInt8)
  | [] => none
  | b :: rest =>
    match lead? b with
    | none => none
    | some lead =>
      match continued? lead.following lead.bits rest with
      | none => none
      | some (n, rest) =>
        if lead.least ≤ n ∧ n.isValidChar then some (Char.ofNat n, rest) else none

theorem length_of_continued? {k bits n : Nat} {bytes rest : List UInt8}
    (h : continued? k bits bytes = some (n, rest)) : rest.length ≤ bytes.length := by
  fun_induction continued? k bits bytes with
  | case1 => cases h; exact Nat.le_refl _
  | case2 => cases h
  | case3 _ _ _ _ _ ih => exact Nat.le_succ_of_le (ih h)
  | case4 => cases h

/-- Reading a character uses up at least one byte. -/
theorem length_of_next? {bytes rest : List UInt8} {c : Char}
    (h : next? bytes = some (c, rest)) : rest.length < bytes.length := by
  unfold next? at h
  repeat' split at h
  all_goals cases h
  exact Nat.lt_succ_of_le (length_of_continued? (by assumption))

/-- The characters of the longest well-formed start, and the bytes behind it. -/
def decode (bytes : List UInt8) : List Char × List UInt8 :=
  match _h : next? bytes with
  | none => ([], bytes)
  | some (c, rest) =>
    let (cs, left) := decode rest
    (c :: cs, left)
termination_by bytes.length
decreasing_by exact length_of_next? _h

/-! ## Characters as bytes -/

theorem encode_append (s t : String) : encode (s ++ t) = encode s ++ encode t := by
  rw [encode, String.toList_append, List.flatMap_append]
  rfl

/-- Every character takes at least one byte. -/
theorem encode_ne_nil {s : String} (h : s ≠ "") : encode s ≠ [] := by
  intro hnil
  have hempty (c : Char) (hc : c ∈ s.toList) : String.utf8EncodeChar c = [] :=
    List.flatMap_eq_nil_iff.mp hnil c hc
  have hno : s.toList = [] := List.eq_nil_iff_forall_not_mem.mpr fun c hc => by
    have hlength := congrArg List.length (hempty c hc)
    rw [String.length_utf8EncodeChar] at hlength
    exact absurd hlength (Nat.ne_of_gt (Char.utf8Size_pos c))
  exact h (String.toList_eq_nil_iff.mp hno)

/-- A character of one byte. -/
theorem encode_ascii {s : String} (h : ∀ c ∈ s.toList, c.toNat < 0x80) :
    encode s = s.toList.map fun c => UInt8.ofNat c.toNat := by
  rw [encode]
  generalize s.toList = cs at h
  induction cs with
  | nil => rfl
  | cons c cs ih =>
    have hc : c.toNat < 0x80 := h c List.mem_cons_self
    have hsize : c.utf8Size = 1 := by
      rw [Char.utf8Size]
      have : c.val ≤ 0x7f := by
        rw [UInt32.le_iff_toNat_le]
        exact Nat.le_of_lt_succ hc
      simp [this]
    rw [List.flatMap_cons, ih fun c hmem => h c (List.mem_cons_of_mem _ hmem),
      String.utf8EncodeChar_eq_singleton hsize]
    rfl

theorem next?_of_lt {n : Nat} (hn : n < 0x80) (rest : List UInt8) :
    next? (UInt8.ofNat n :: rest) = some (Char.ofNat n, rest) := by
  have htoNat : (UInt8.ofNat n).toNat = n := by
    rw [UInt8.toNat_ofNat']
    omega
  have hvalid : n.isValidChar := .inl (by omega)
  simp [next?, lead?, htoNat, hn, continued?, hvalid]

theorem decode_ascii {cs : List Char} (h : ∀ c ∈ cs, c.toNat < 0x80) :
    decode (cs.map fun c => UInt8.ofNat c.toNat) = (cs, []) := by
  induction cs with
  | nil => rw [List.map_nil, decode]; rfl
  | cons c cs ih =>
    have hc : c.toNat < 0x80 := h c List.mem_cons_self
    rw [List.map_cons, decode]
    split
    · rename_i hnone
      rw [next?_of_lt hc] at hnone
      cases hnone
    · rename_i hsome
      rw [next?_of_lt hc] at hsome
      cases hsome
      rw [ih fun c hmem => h c (List.mem_cons_of_mem _ hmem), Char.ofNat_toNat]

end SheddingQueue.Utf8
