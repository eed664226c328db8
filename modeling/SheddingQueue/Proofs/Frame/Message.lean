import SheddingQueue.Frame.Message
import SheddingQueue.Proofs.Json.Members
import SheddingQueue.Proofs.Json.Objects
import SheddingQueue.Proofs.Json.Phrases

/-!
# What a message has to be and what its frame says

`Describable` is what the members of a message have to be for it to describe a frame, and
`Frame.Says` is what the frame then says; there is only one such frame. What the members so far
come to is `Draft.ofEntries`, and the induction over a message goes from the members in front of the
last one to all of them.
-/

namespace SheddingQueue

open Json

/-- What may stand where an image is expected. -/
def IsNullOrText (v : Value) : Prop := v = .scalar .null ∨ ∃ s, v = .scalar (.text s)

/-- Members that describe a frame. -/
structure Describable (entries : List (String × Value)) : Prop where
  seq : (valuesOf seqKey entries).length ≤ 1
  image : (valuesOf imageKey entries).length ≤ 1
  text : ∀ v ∈ valuesOf imageKey entries, IsNullOrText v

/-- A frame says what some members say. -/
structure Frame.Says (f : Frame) (entries : List (String × Value)) : Prop where
  seq : ∀ n, f.seq = some n ↔ valuesOf seqKey entries = [.scalar (.number (.natural n))]
  image : ∀ bytes, f.image = some bytes ↔
    ∃ s, valuesOf imageKey entries = [.scalar (.text s)] ∧ s ≠ "" ∧ bytes = Utf8.encode s
  ordered : f.fields.Ordered
  fields : ∀ key, f.fields.get? key =
    if key = seqKey ∨ key = imageKey then none else (valuesOf key entries).getLast?

theorem natural?_eq_some_iff {v : Value} {n : UInt64} :
    v.natural? = some n ↔ v = .scalar (.number (.natural n)) := by
  unfold Value.natural?
  split <;> simp_all

theorem seqKey_ne_imageKey : seqKey ≠ imageKey := by decide

namespace Draft

/-- The image that a value stands for. -/
def image? : Value → Option (List UInt8)
  | .scalar (.text s) => imageOf s
  | _ => none

theorem imageOf_eq_some_iff {s : String} {bytes : List UInt8} :
    imageOf s = some bytes ↔ s ≠ "" ∧ bytes = Utf8.encode s := by
  rw [imageOf]
  by_cases hs : s = ""
  · simp [hs]
  · rw [if_neg (by simpa using hs), Option.some_inj]
    exact ⟨fun h => ⟨hs, h.symm⟩, fun h => h.2.symm⟩

theorem image?_eq_some_iff {v : Value} {bytes : List UInt8} :
    image? v = some bytes ↔ ∃ s, v = .scalar (.text s) ∧ s ≠ "" ∧ bytes = Utf8.encode s := by
  unfold image?
  split
  · next s => simp [imageOf_eq_some_iff]
  · next hv =>
    constructor
    · intro h
      cases h
    · rintro ⟨s, rfl, -⟩
      exact (hv s rfl).elim

/-- Text never stands for an image of no bytes. -/
theorem image?_ne_nil (v : Value) : image? v ≠ some [] := by
  intro h
  obtain ⟨s, -, hs, hbytes⟩ := image?_eq_some_iff.mp h
  exact Utf8.encode_ne_nil hs hbytes.symm

/-- Add a member, whether it may be added or not. -/
def put (d : Draft) (e : String × Value) : Draft :=
  if e.1 = seqKey then { d with seq := some e.2.natural? }
  else if e.1 = imageKey then { d with image := some (image? e.2) }
  else { d with fields := d.fields.insert e.1 e.2 }

/-- What some members come to. -/
def ofEntries (entries : List (String × Value)) : Draft := entries.foldl put {}

/-- A further member may be added. -/
def Takes (d : Draft) (e : String × Value) : Prop :=
  (e.1 = seqKey → d.seq = none) ∧ (e.1 = imageKey → d.image = none ∧ IsNullOrText e.2)

/-! ## One member -/

section

variable {d d' : Draft} {e : String × Value}

theorem put_seq : (d.put e).seq = if e.1 = seqKey then some e.2.natural? else d.seq := by
  unfold put
  split
  · rfl
  · split <;> rfl

theorem put_image : (d.put e).image = if e.1 = imageKey then some (image? e.2) else d.image := by
  unfold put
  split
  · next h => rw [h, if_neg seqKey_ne_imageKey]
  · split <;> rfl

theorem put_fields : (d.put e).fields =
    if e.1 = seqKey ∨ e.1 = imageKey then d.fields else d.fields.insert e.1 e.2 := by
  unfold put
  split
  · next h => rw [if_pos (.inl h)]
  split
  · next h => rw [if_pos (.inr h)]
  · next hseq himage => rw [if_neg (not_or.mpr ⟨hseq, himage⟩)]

theorem clash?_eq_none_iff {key : String} : d.clash? key = none ↔
    (key = seqKey → d.seq = none) ∧ (key = imageKey → d.image = none) := by
  simp [clash?, not_or]

theorem setImage_eq_ok_iff {v : Value} : d.setImage v = .ok d' ↔
    IsNullOrText v ∧ d' = { d with image := some (image? v) } := by
  unfold setImage
  split <;> simp_all [IsNullOrText, image?, eq_comm]

theorem set_eq_ok_iff {key : String} {v : Value} : d.set key v = .ok d' ↔
    (key = imageKey → IsNullOrText v) ∧ d' = d.put (key, v) := by
  unfold set put
  by_cases hseq : key = seqKey
  · have hother : key ≠ imageKey := hseq ▸ seqKey_ne_imageKey
    rw [if_pos hseq, if_pos hseq]
    simp [hother, eq_comm]
  rw [if_neg hseq, if_neg hseq]
  by_cases himage : key = imageKey
  · rw [if_pos himage, if_pos himage, setImage_eq_ok_iff]
    simp [himage]
  · rw [if_neg himage, if_neg himage]
    simp [himage, eq_comm]

theorem add_eq_ok_iff {m : Member} :
    d.add m = .ok d' ↔ d.Takes m.entry ∧ d' = d.put m.entry := by
  have hclash : d.clash? m.key.name = none ↔ _ := clash?_eq_none_iff
  have hset : d.set m.key.name m.value = .ok d' ↔ _ := set_eq_ok_iff
  have htakes : d.Takes m.entry ↔
      d.clash? m.key.name = none ∧ (m.key.name = imageKey → IsNullOrText m.value) := by
    rw [hclash, Takes, Member.entry, imp_and, and_assoc]
  have hput : d.put m.entry = d.put (m.key.name, m.value) := rfl
  rw [add, htakes, hput]
  cases d.clash? m.key.name with
  | some cause => simp
  | none =>
    rw [and_iff_right rfl, ← hset]
    cases d.set m.key.name m.value <;> simp

end

/-! ## All members -/

variable {entries : List (String × Value)}

theorem ofEntries_append_single (e : String × Value) :
    ofEntries (entries ++ [e]) = (ofEntries entries).put e := by
  rw [ofEntries, List.foldl_append]
  rfl

theorem ofEntries_seq :
    (ofEntries entries).seq = (valuesOf seqKey entries).getLast?.map Value.natural? := by
  induction entries using List.reverseRecOn with
  | nil => rfl
  | append_singleton entries e ih =>
    rw [ofEntries_append_single, put_seq, getLast?_valuesOf, ih]
    split <;> rfl

theorem ofEntries_image :
    (ofEntries entries).image = (valuesOf imageKey entries).getLast?.map image? := by
  induction entries using List.reverseRecOn with
  | nil => rfl
  | append_singleton entries e ih =>
    rw [ofEntries_append_single, put_image, getLast?_valuesOf, ih]
    split <;> rfl

theorem ofEntries_ordered : (ofEntries entries).fields.Ordered := by
  induction entries using List.reverseRecOn with
  | nil => exact .nil
  | append_singleton entries e ih =>
    rw [ofEntries_append_single, put_fields]
    split
    · exact ih
    · exact ih.insert e.1 e.2

theorem mem_entries_of_mem_fields {e : String × Value} (h : e ∈ (ofEntries entries).fields) :
    e ∈ entries := by
  induction entries using List.reverseRecOn with
  | nil => exact absurd h List.not_mem_nil
  | append_singleton entries last ih =>
    rw [ofEntries_append_single, put_fields] at h
    split at h
    · exact List.mem_append_left [last] (ih h)
    · rcases Members.mem_insert h with rfl | h
      · exact List.mem_append_right entries List.mem_cons_self
      · exact List.mem_append_left [last] (ih h)

theorem ofEntries_fields (key : String) : (ofEntries entries).fields.get? key =
    if key = seqKey ∨ key = imageKey then none else (valuesOf key entries).getLast? := by
  induction entries using List.reverseRecOn with
  | nil => exact (ite_self none).symm
  | append_singleton entries e ih =>
    rw [ofEntries_append_single, put_fields, getLast?_valuesOf]
    by_cases he : e.1 = seqKey ∨ e.1 = imageKey
    · -- one of the two known keys never is a field
      rw [if_pos he, ih]
      by_cases hkey : key = seqKey ∨ key = imageKey
      · rw [if_pos hkey, if_pos hkey]
      · have hne : e.1 ≠ key := fun h => hkey (h ▸ he)
        rw [if_neg hkey, if_neg hkey, if_neg hne]
    · rw [if_neg he, Members.get?_insert, ih]
      by_cases hkey : key = e.1
      · rw [if_pos hkey, if_neg (hkey ▸ he), if_pos hkey.symm]
      · rw [if_neg hkey, if_neg (Ne.symm hkey)]

/-- A message stays describable with a further member if the draft takes it. -/
theorem describable_append_single (e : String × Value) :
    Describable (entries ++ [e]) ↔ Describable entries ∧ (ofEntries entries).Takes e := by
  have hseq := length_valuesOf_append seqKey entries e
  have himage := length_valuesOf_append imageKey entries e
  have htext := forall_mem_valuesOf_append imageKey entries IsNullOrText e
  have hnone (key : String) {α : Type} (f : Value → α) :
      (valuesOf key entries).getLast?.map f = none ↔ valuesOf key entries = [] := by
    rw [Option.map_eq_none_iff, List.getLast?_eq_none_iff]
  rw [Takes, ofEntries_seq, ofEntries_image, hnone, hnone]
  constructor
  · rintro ⟨h₁, h₂, h₃⟩
    obtain ⟨hseq, hseq'⟩ := hseq.mp h₁
    obtain ⟨himage, himage'⟩ := himage.mp h₂
    obtain ⟨htext, htext'⟩ := htext.mp h₃
    exact ⟨⟨hseq, himage, htext⟩, hseq', fun h => ⟨himage' h, htext' h⟩⟩
  · rintro ⟨h, hseq', himage'⟩
    exact ⟨hseq.mpr ⟨h.seq, hseq'⟩, himage.mpr ⟨h.image, fun he => (himage' he).1⟩,
      htext.mpr ⟨h.text, fun he => (himage' he).2⟩⟩

theorem ofMembers_append_single {members : List Member} {m : Member} {d : Draft} :
    ofMembers (members ++ [m]) = .ok d ↔ ∃ d', ofMembers members = .ok d' ∧ d'.add m = .ok d := by
  rw [ofMembers, List.foldlM_append, ← ofMembers]
  cases ofMembers members with
  | error fault =>
    constructor
    · intro h
      cases h
    · rintro ⟨d', h, -⟩
      cases h
  | ok d' =>
    show ([m].foldlM add d' = .ok d) ↔ _
    rw [List.foldlM_cons]
    cases hadd : d'.add m <;> simp [hadd, bind, Except.bind, pure, Except.pure]

/-- A message describes a frame just if each of its members may be added. -/
theorem ofMembers_eq_ok_iff {members : List Member} {d : Draft} :
    ofMembers members = .ok d ↔
      Describable (members.map Member.entry) ∧ d = ofEntries (members.map Member.entry) := by
  induction members using List.reverseRecOn generalizing d with
  | nil =>
    have hnone : Describable [] := ⟨Nat.zero_le 1, Nat.zero_le 1, nofun⟩
    exact ⟨fun h => ⟨hnone, (Except.ok.inj h).symm⟩, fun h => congrArg Except.ok h.2.symm⟩
  | append_singleton members m ih =>
    rw [ofMembers_append_single, List.map_append, List.map_singleton, describable_append_single,
      ofEntries_append_single]
    constructor
    · rintro ⟨d', hd', hadd⟩
      obtain ⟨hdescribable, rfl⟩ := ih.mp hd'
      obtain ⟨htakes, rfl⟩ := add_eq_ok_iff.mp hadd
      exact ⟨⟨hdescribable, htakes⟩, rfl⟩
    · rintro ⟨⟨hdescribable, htakes⟩, rfl⟩
      exact ⟨_, ih.mpr ⟨hdescribable, rfl⟩, add_eq_ok_iff.mpr ⟨htakes, rfl⟩⟩

end Draft

/-! ## Messages -/

variable {bytes : List UInt8} {entries entries' : List (String × Value)} {f f' : Frame}

theorem Frame.says_ofEntries (h : Describable entries) :
    (Draft.ofEntries entries).frame.Says entries where
  seq n := by
    show (Draft.ofEntries entries).seq.join = some n ↔ _
    rw [Draft.ofEntries_seq, valuesOf_eq_single_iff h.seq]
    cases (valuesOf seqKey entries).getLast? <;> simp [natural?_eq_some_iff]
  image bytes := by
    show (Draft.ofEntries entries).image.join = some bytes ↔ _
    simp only [Draft.ofEntries_image, valuesOf_eq_single_iff h.image]
    cases (valuesOf imageKey entries).getLast? <;> simp [Draft.image?_eq_some_iff]
  ordered := Draft.ofEntries_ordered
  fields := Draft.ofEntries_fields

/-- What a frame says tells which frame it is. -/
theorem Frame.Says.unique (h : f.Says entries) (h' : f'.Says entries')
    (hsame : ∀ key, valuesOf key entries = valuesOf key entries') : f = f' := by
  have hseq : f.seq = f'.seq := Option.ext fun n => by rw [h.seq, h'.seq, hsame]
  have himage : f.image = f'.image := Option.ext fun bytes => by
    rw [h.image, h'.image, hsame]
  have hfields : f.fields = f'.fields := h.ordered.ext h'.ordered fun key => by
    rw [h.fields, h'.fields, hsame]
  cases f
  cases f'
  simp only [Frame.mk.injEq]
  exact ⟨hseq, himage, hfields⟩

theorem Frame.ofMessage_eq_ok_iff (h : IsReadAs bytes entries) :
    Frame.ofMessage bytes = .ok f ↔ Describable entries ∧ f = (Draft.ofEntries entries).frame := by
  obtain ⟨members, rfl, hread⟩ := h
  have hmembers (d : Draft) : Draft.ofMembers members = .ok d ↔ _ := Draft.ofMembers_eq_ok_iff
  rw [Frame.ofMessage, hread]
  dsimp only
  rw [Frame.ofReading]
  cases hdraft : Draft.ofMembers members with
  | error fault =>
    constructor
    · intro h
      cases h
    · rintro ⟨hdescribable, -⟩
      cases hdraft.symm.trans ((hmembers _).mpr ⟨hdescribable, rfl⟩)
  | ok d =>
    obtain ⟨hdescribable, rfl⟩ := (hmembers d).mp hdraft
    simp [bind, Except.bind, hdescribable, eq_comm]

/-- Whatever a message describes, the members that are read of it come to. -/
theorem Frame.exists_reading (h : ofMessage bytes = .ok f) :
    ∃ reading, Document.read bytes = .object reading ∧
      f = (Draft.ofEntries (reading.members.map Member.entry)).frame := by
  unfold ofMessage at h
  split at h
  · next reading hread =>
    unfold ofReading at h
    cases hdraft : Draft.ofMembers reading.members with
    | error fault =>
      rw [hdraft] at h
      cases h
    | ok d =>
      rw [hdraft] at h
      dsimp only [bind, Except.bind] at h
      split at h
      · cases h
      · cases h
      · cases h
        exact ⟨reading, hread, congrArg Draft.frame (Draft.ofMembers_eq_ok_iff.mp hdraft).2⟩
  · cases h
  · cases h

/-- No message gives an image of no bytes. -/
theorem Frame.ofMessage_image_ne_nil (h : ofMessage bytes = .ok f) : f.image ≠ some [] := by
  obtain ⟨reading, -, rfl⟩ := exists_reading h
  show (Draft.ofEntries _).image.join ≠ some []
  rw [Draft.ofEntries_image]
  cases (valuesOf imageKey (reading.members.map Member.entry)).getLast? with
  | none => nofun
  | some v => exact Draft.image?_ne_nil v

/-- Two messages with the same values under each key describe the same frame, if they do. -/
theorem Frame.ofMessage_congr {bytes' : List UInt8} (h : IsReadAs bytes entries)
    (h' : IsReadAs bytes' entries') (hsame : ∀ key, valuesOf key entries = valuesOf key entries')
    (hf : Frame.ofMessage bytes = .ok f) : Frame.ofMessage bytes' = .ok f := by
  obtain ⟨hdescribable, rfl⟩ := (ofMessage_eq_ok_iff h).mp hf
  have hdescribable' : Describable entries' :=
    ⟨hsame seqKey ▸ hdescribable.seq, hsame imageKey ▸ hdescribable.image,
      hsame imageKey ▸ hdescribable.text⟩
  exact (ofMessage_eq_ok_iff h').mpr ⟨hdescribable',
    (says_ofEntries hdescribable).unique (says_ofEntries hdescribable') hsame⟩

theorem Frame.ofMessage_other {depth : Nat} {v : Value}
    (h : Phrase depth (.value v) (lexemes bytes)) (hv : ∀ members, v ≠ .object members) :
    ∃ fault, Frame.ofMessage bytes = .error fault := by
  obtain ⟨found, complaint, hread⟩ := read_of_not_object h hv
  rw [Frame.ofMessage, hread]
  exact ⟨_, rfl⟩

/-- An object that is nested no deeper than the reader follows is read with its members in the
order of the text, and an object inside it keeps the last value under each key. Only an integer of
64 bits that is written without a sign, a fraction and an exponent is read as a natural number.

If the members of a message are read, it describes a frame just if `seqId` and `frameData` are there
once at most and a `frameData` is text or null, and the frame says what the members say. Anything
but an object describes no frame. The order of the members makes no difference if no key is there
twice. -/
theorem Frame.ofMessage_characterized :
    (∀ bytes entries, IsObject bytes entries → IsReadAs bytes entries) ∧
    (∀ entries, (Members.ofList entries).Ordered ∧
      ∀ key, (Members.ofList entries).get? key = (valuesOf key entries).getLast?) ∧
    (∀ (x : Numeral) (n : UInt64), x.number = .ok (.natural n) ↔
      x.negative = false ∧ x.fraction = none ∧ x.exponent = none ∧
        Numeral.valueFrom 0 x.whole = n.toNat) ∧
    (∀ bytes entries, IsReadAs bytes entries →
      ((∃ f, Frame.ofMessage bytes = .ok f) ↔ Describable entries) ∧
        ∀ f, Frame.ofMessage bytes = .ok f → f.Says entries) ∧
    (∀ bytes depth v, Phrase depth (.value v) (lexemes bytes) → (∀ members, v ≠ .object members) →
      ∃ fault, Frame.ofMessage bytes = .error fault) ∧
    ∀ bytes bytes' entries entries', IsReadAs bytes entries → IsReadAs bytes' entries' →
      entries.Perm entries' → (entries.map Prod.fst).Nodup →
      ∀ f, Frame.ofMessage bytes = .ok f ↔ Frame.ofMessage bytes' = .ok f := by
  refine ⟨fun bytes entries h => h.isReadAs,
    fun entries => ⟨Members.ordered_ofList entries, fun key => Members.get?_ofList key entries⟩,
    Numeral.number_eq_natural_iff, fun bytes entries h => ⟨?_, ?_⟩,
    fun bytes depth v h hv => ofMessage_other h hv, ?_⟩
  · constructor
    · rintro ⟨f, hf⟩
      exact ((ofMessage_eq_ok_iff h).mp hf).1
    · intro hdescribable
      exact ⟨_, (ofMessage_eq_ok_iff h).mpr ⟨hdescribable, rfl⟩⟩
  · intro f hf
    obtain ⟨hdescribable, rfl⟩ := (ofMessage_eq_ok_iff h).mp hf
    exact says_ofEntries hdescribable
  · intro bytes bytes' entries entries' h h' hperm hkeys f
    have hsame (key : String) : valuesOf key entries = valuesOf key entries' :=
      valuesOf_eq_of_perm hperm hkeys
    exact ⟨ofMessage_congr h h' hsame, ofMessage_congr h' h fun key => (hsame key).symm⟩

/-- A message with a number, an image and a field describes a frame with all three. -/
theorem Frame.ofMessage_three :
    ∃ f, Frame.ofMessage (Utf8.encode
        "\x7b\"seqId\":3,\"frameData\":\"AAEC\",\"streamId\":1\x7d") = .ok f ∧
      f.seq = some 3 ∧ f.image = some (Utf8.encode "AAEC") ∧
      f.fields.get? "streamId" = some (.scalar (.number (.natural 1))) := by
  have hplain : IsPlain "seqId" ∧ IsPlain "frameData" ∧ IsPlain "AAEC" ∧ IsPlain "streamId" := by
    decide
  obtain ⟨hseq, himage, hdata, hstream⟩ := hplain
  obtain ⟨members, hmembers, hread⟩ := read_object hseq (.natural 3)
    (.member himage (.text hdata) (.member hstream (.natural 1) .brace))
  have hread : IsReadAs (Utf8.encode
      "\x7b\"seqId\":3,\"frameData\":\"AAEC\",\"streamId\":1\x7d") _ := ⟨members, hmembers, hread⟩
  obtain ⟨hsome, hmade⟩ := Frame.ofMessage_characterized.2.2.2.1 _ _ hread
  obtain ⟨f, hf⟩ := hsome.mpr ⟨by decide, by decide, by
    intro v hv
    obtain rfl := List.mem_singleton.mp hv
    exact .inr ⟨"AAEC", rfl⟩⟩
  have hmade := hmade f hf
  exact ⟨f, hf, (hmade.seq 3).mpr rfl,
    (hmade.image _).mpr ⟨"AAEC", rfl, by decide, rfl⟩, hmade.fields "streamId"⟩

end SheddingQueue
