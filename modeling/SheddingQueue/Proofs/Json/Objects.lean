import SheddingQueue.Json.Reading
import SheddingQueue.Proofs.Json.Numerals

/-!
# Objects that are read as they were written

An object is written plainly if it has no spaces, its keys and texts need no escapes, and all its
other values are natural numbers. `read_object` says that such an object is read as it was written.
The lemmas before it go from bytes to texts, from texts to tokens, and from tokens to members.
-/

namespace SheddingQueue.Json

/-! ## Quoted text -/

/-- Characters that stand for themselves in quoted text and are one byte long. -/
def isPlain (c : Char) : Bool := 0x20 ≤ c.toNat && c.toNat < 0x80 && c != '"' && c != '\\'

/-- Text without escapes. -/
def IsPlain (s : String) : Prop := ∀ c ∈ s.toList, isPlain c = true

instance (s : String) : Decidable (IsPlain s) :=
  decidable_of_iff (s.toList.all isPlain = true) List.all_eq_true

/-- Plain text in quotes. -/
def quoted (s : String) : List UInt8 := 0x22 :: (Utf8.encode s ++ [0x22])

theorem IsPlain.ascii {s : String} (h : IsPlain s) : ∀ c ∈ s.toList, c.toNat < 0x80 := by
  intro c hc
  have hc := h c hc
  simp only [isPlain, Bool.and_eq_true, decide_eq_true_eq] at hc
  exact hc.1.1.2

theorem IsPlain.encode {s : String} (h : IsPlain s) :
    Utf8.encode s = s.toList.map fun c => UInt8.ofNat c.toNat :=
  Utf8.encode_ascii h.ascii

namespace Quotation

theorem feed_plain {c : Char} (h : isPlain c = true) :
    State.plain.feed (UInt8.ofNat c.toNat) = .go [UInt8.ofNat c.toNat] .plain := by
  simp only [isPlain, Bool.and_eq_true, decide_eq_true_eq, bne_iff_ne, ne_eq] at h
  obtain ⟨⟨⟨hlow, hhigh⟩, hquote⟩, hslash⟩ := h
  have htoNat : (UInt8.ofNat c.toNat).toNat = c.toNat := by
    rw [UInt8.toNat_ofNat']
    omega
  have hne {d : UInt8} {e : Char} (he : e.toNat = d.toNat) (hce : c ≠ e) :
      UInt8.ofNat c.toNat ≠ d := by
    rintro rfl
    rw [htoNat] at he
    exact hce (Char.toNat_inj.mp he.symm)
  have hcontrol : ¬UInt8.ofNat c.toNat < 0x20 := by
    rw [UInt8.lt_iff_toNat_lt, htoNat]
    exact Nat.not_lt.mpr hlow
  rw [State.feed, if_neg (hne (e := '"') rfl hquote), if_neg (hne (e := '\\') rfl hslash),
    if_neg hcontrol]

theorem bytesFrom_plain {bytes : List UInt8} (h : ∀ b ∈ bytes, State.plain.feed b = .go [b] .plain)
    (done : List UInt8) (offset : Nat) (rest : List UInt8) :
    bytesFrom .plain done offset (bytes ++ 0x22 :: rest) =
      .ok (done.reverse ++ bytes, ⟨offset + bytes.length + 1, rest⟩) := by
  induction bytes generalizing done offset with
  | nil => simp [bytesFrom, State.feed]
  | cons b bytes ih =>
    have ih := ih (fun b hmem => h b (List.mem_cons_of_mem _ hmem)) (b :: done) (offset + 1)
    rw [List.cons_append, bytesFrom, h b List.mem_cons_self]
    refine ih.trans ?_
    rw [List.reverse_cons, List.append_assoc, List.singleton_append, List.length_cons,
      Nat.add_right_comm offset 1, Nat.add_assoc offset]

/-- Plain text is read as it stands. -/
theorem read_plain {s : String} (h : IsPlain s) (offset : Nat) (rest : List UInt8) :
    read ⟨offset, Utf8.encode s ++ 0x22 :: rest⟩ =
      .ok (s, ⟨offset + (Utf8.encode s).length + 1, rest⟩) := by
  have hfeed : ∀ b ∈ Utf8.encode s, State.plain.feed b = .go [b] .plain := by
    rw [h.encode]
    intro b hb
    obtain ⟨c, hc, rfl⟩ := List.mem_map.mp hb
    exact feed_plain (h c hc)
  rw [read, bytesFrom_plain hfeed, List.reverse_nil, List.nil_append, h.encode]
  dsimp only
  rw [Utf8.decode_ascii h.ascii]
  simp only [String.ofList_toList]

end Quotation

/-! ## Tokens -/

/-- Bytes that are read as a scalar. -/
inductive Spells : List UInt8 → Scalar → Prop where
  | natural (n : UInt64) : Spells (Utf8.encode (toString n.toNat)) (.number (.natural n))
  | text {s : String} (h : IsPlain s) : Spells (quoted s) (.text s)

theorem lexemesFrom_of_scan {offset stop : Nat} {b : UInt8} {rest more : List UInt8} {token : Token}
    (hb : isBlank b = false) (h : Token.scan offset b rest = (token, some ⟨stop, more⟩)) :
    lexemesFrom offset (b :: rest) = ⟨token, offset, stop⟩ :: lexemesFrom stop more := by
  rw [lexemesFrom, if_neg (by rw [hb]; exact Bool.false_ne_true)]
  split
  · rename_i hscan
    cases h.symm.trans hscan
    rfl
  · rename_i hscan
    cases h.symm.trans hscan

theorem lexemesFrom_punctuation {b : UInt8} {token : Token} (h : Token.punctuation? b = some token)
    (hb : isBlank b = false) (offset : Nat) (rest : List UInt8) :
    lexemesFrom offset (b :: rest) =
      ⟨token, offset, offset + 1⟩ :: lexemesFrom (offset + 1) rest := by
  apply lexemesFrom_of_scan hb
  rw [Token.scan, h]

theorem lexemesFrom_quoted {s : String} (h : IsPlain s) (offset : Nat) (rest : List UInt8) :
    lexemesFrom offset (quoted s ++ rest) =
      ⟨.scalar (.text s), offset, offset + (quoted s).length⟩
        :: lexemesFrom (offset + (quoted s).length) rest := by
  have hlength : (quoted s).length = 1 + (Utf8.encode s).length + 1 := by
    simp [quoted]
    omega
  rw [hlength, ← Nat.add_assoc, ← Nat.add_assoc, quoted, List.cons_append, List.append_assoc]
  apply lexemesFrom_of_scan rfl
  show Token.text ⟨offset + 1, Utf8.encode s ++ 0x22 :: rest⟩ = _
  rw [Token.text, Quotation.read_plain h]

theorem ne_of_isDigit {b d : UInt8} (hb : isDigit b = true) (hd : isDigit d = false) : b ≠ d := by
  rintro rfl
  rw [hd] at hb
  cases hb

theorem scan_digit {b : UInt8} (hb : isDigit b = true) (offset : Nat) (rest : List UInt8) :
    Token.scan offset b rest = Token.number ⟨offset, b :: rest⟩ := by
  have hne {d : UInt8} (hd : isDigit d = false) : b ≠ d := ne_of_isDigit hb hd
  have hnone : Token.punctuation? b = none := by
    simp [Token.punctuation?, hne (d := 0x7b) rfl, hne (d := 0x7d) rfl, hne (d := 0x5b) rfl,
      hne (d := 0x5d) rfl, hne (d := 0x2c) rfl, hne (d := 0x3a) rfl]
  rw [Token.scan, hnone]
  simp [hne (d := 0x22) rfl, hne (d := 0x6e) rfl, hne (d := 0x74) rfl, hne (d := 0x66) rfl, hb]

theorem lexemesFrom_natural (n : UInt64) (offset : Nat) {rest : List UInt8}
    (hrest : EndsNumeral rest) :
    lexemesFrom offset (Utf8.encode (toString n.toNat) ++ rest) =
      ⟨.scalar (.number (.natural n)), offset, offset + (Utf8.encode (toString n.toNat)).length⟩
        :: lexemesFrom (offset + (Utf8.encode (toString n.toNat)).length) rest := by
  have hread := Numeral.read_natural n offset hrest
  have hdigit (b : UInt8) (hb : b ∈ Utf8.encode (toString n.toNat)) :=
    Numeral.isDigit_of_mem_encode hb
  obtain ⟨b, more, hbytes⟩ := List.exists_cons_of_ne_nil (Numeral.encode_ne_nil n.toNat)
  rw [hbytes] at hread hdigit ⊢
  have hb := hdigit b List.mem_cons_self
  have hne {d : UInt8} (hd : isDigit d = false) : b ≠ d := ne_of_isDigit hb hd
  have hblank : isBlank b = false := by
    simp [isBlank, hne (d := 0x20) rfl, hne (d := 0x09) rfl, hne (d := 0x0a) rfl,
      hne (d := 0x0d) rfl]
  apply lexemesFrom_of_scan hblank
  rw [scan_digit hb]
  show Token.number ⟨offset, b :: more ++ rest⟩ = _
  rw [Token.number, hread]

/-- The token of a scalar that is written plainly. -/
theorem lexemesFrom_spells {bytes : List UInt8} {v : Scalar} (h : Spells bytes v) (offset : Nat)
    {rest : List UInt8} (hrest : EndsNumeral rest) :
    lexemesFrom offset (bytes ++ rest) =
      ⟨.scalar v, offset, offset + bytes.length⟩ :: lexemesFrom (offset + bytes.length) rest := by
  cases h with
  | natural n => exact lexemesFrom_natural n offset hrest
  | text hs => exact lexemesFrom_quoted hs offset rest

/-! ## Objects -/

/-- The rest of an object, behind its first value: further members and the closing brace. -/
inductive Closes : List UInt8 → List (String × Scalar) → Prop where
  | brace : Closes [0x7d] []
  | member {key : String} {bytes rest : List UInt8} {v : Scalar} {entries : List (String × Scalar)}
      (hkey : IsPlain key) (hv : Spells bytes v) (h : Closes rest entries) :
      Closes (0x2c :: (quoted key ++ 0x3a :: (bytes ++ rest))) ((key, v) :: entries)

theorem Closes.endsNumeral {rest : List UInt8} {entries : List (String × Scalar)}
    (h : Closes rest entries) : EndsNumeral rest := by
  intro b hb
  cases h <;> cases hb <;> decide

/-- A key, a colon and a value make a member. -/
theorem step_member {expecting : Expecting} (members : List Member)
    (h : expecting = .key ∨ expecting = .firstKey) {key : String} {bytes rest : List UInt8}
    {v : Scalar}
    (hkey : IsPlain key) (hv : Spells bytes v) (hrest : EndsNumeral rest) (start offset : Nat) :
    ∃ member : Member, member.entry = (key, .scalar v) ∧ ∃ offset',
      (lexemesFrom offset (quoted key ++ 0x3a :: (bytes ++ rest))).foldl Reader.step
          (.within [⟨start, .object members none⟩] expecting) =
        (lexemesFrom offset' rest).foldl Reader.step
          (.within [⟨start, .object (member :: members) none⟩] .separator) := by
  rw [lexemesFrom_quoted hkey, lexemesFrom_punctuation (b := 0x3a) rfl rfl,
    lexemesFrom_spells hv _ hrest]
  rcases h with rfl | rfl
  · exact ⟨⟨⟨key, _⟩, .scalar v, _⟩, rfl, _, rfl⟩
  · exact ⟨⟨⟨key, _⟩, .scalar v, _⟩, rfl, _, rfl⟩

theorem foldl_closes {rest : List UInt8} {entries : List (String × Scalar)}
    (h : Closes rest entries)
    (start offset stop : Nat) (members : List Member) :
    ∃ more : List Member, more.map Member.entry = entries.map (fun e => (e.1, .scalar e.2)) ∧
      ((lexemesFrom offset rest).foldl Reader.step
          (.within [⟨start, .object members none⟩] .separator)).finish stop =
        ⟨members.reverse ++ more, none, none⟩ := by
  induction h generalizing offset members with
  | brace =>
    rw [lexemesFrom_punctuation (b := 0x7d) rfl rfl, lexemesFrom]
    refine ⟨[], rfl, ?_⟩
    rw [List.append_nil]
    rfl
  | member hkey hv h ih =>
    rw [lexemesFrom_punctuation (b := 0x2c) rfl rfl]
    obtain ⟨member, hentry, offset', hstep⟩ := step_member members
      (.inl rfl) hkey hv h.endsNumeral start (offset + 1)
    obtain ⟨more, hmore, hfinish⟩ := ih offset' (member :: members)
    refine ⟨member :: more, ?_, ?_⟩
    · rw [List.map_cons, hentry, hmore]
      rfl
    · rw [List.reverse_cons, List.append_assoc, List.singleton_append] at hfinish
      rw [← hfinish, ← hstep]
      rfl

/-- An object that is written plainly is read as it was written. -/
theorem read_object {key : String} {bytes rest : List UInt8} {v : Scalar}
    {entries : List (String × Scalar)} (hkey : IsPlain key) (hv : Spells bytes v)
    (h : Closes rest entries) :
    ∃ members : List Member,
      members.map Member.entry = ((key, v) :: entries).map (fun e => (e.1, .scalar e.2)) ∧
      Document.read (0x7b :: (quoted key ++ 0x3a :: (bytes ++ rest))) =
        .object ⟨members, none, none⟩ := by
  rw [Document.read, lexemes, lexemesFrom_punctuation (b := 0x7b) rfl rfl]
  obtain ⟨member, hentry, offset', hstep⟩ := step_member []
    (.inr rfl) hkey hv h.endsNumeral 0 (0 + 1)
  obtain ⟨more, hmore, hfinish⟩ := foldl_closes h 0 offset' _ [member]
  refine ⟨member :: more, ?_, ?_⟩
  · rw [List.map_cons, hentry, hmore]
    rfl
  · dsimp only
    rw [hstep, hfinish]
    rfl

end SheddingQueue.Json
