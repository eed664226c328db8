import SheddingQueue.Json.Reading

/-!
# Texts that are read completely

`Phrase` is the grammar of JSON over tokens. A text that follows it is read to its end, with all
its members in the order of the text, unless more containers are open at once than the reader
allows. The grammar has no limit for the nesting; a phrase is given with one.
-/

namespace SheddingQueue.Json

/-- What a part of a text stands for. -/
inductive Part where
  | value (v : Value)
  /-- The rest of a list with its bracket. `first` is whether nothing stands in front of it. -/
  | items (first : Bool) (values : List Value)
  /-- The rest of an object with its brace. -/
  | members (first : Bool) (entries : List (String × Value))

/-- Tokens of a part of a text in which at most `depth` containers are open at once. -/
inductive Phrase : (depth : Nat) → Part → List Lexeme → Prop where
  | scalar {depth : Nat} {s : Scalar} {x : Lexeme} (hx : x.token = .scalar s) :
      Phrase depth (.value (.scalar s)) [x]
  | list {depth : Nat} {values : List Value} {x : Lexeme} {xs : List Lexeme}
      (hx : x.token = .leftBracket) (h : Phrase depth (.items true values) xs) :
      Phrase (depth + 1) (.value (.list values)) (x :: xs)
  | object {depth : Nat} {entries : List (String × Value)} {x : Lexeme} {xs : List Lexeme}
      (hx : x.token = .leftBrace) (h : Phrase depth (.members true entries) xs) :
      Phrase (depth + 1) (.value (.object (Members.ofList entries))) (x :: xs)
  | bracket {depth : Nat} {first : Bool} {x : Lexeme} (hx : x.token = .rightBracket) :
      Phrase depth (.items first []) [x]
  | brace {depth : Nat} {first : Bool} {x : Lexeme} (hx : x.token = .rightBrace) :
      Phrase depth (.members first []) [x]
  | firstItem {depth : Nat} {v : Value} {values : List Value} {xs ys : List Lexeme}
      (hv : Phrase depth (.value v) xs) (h : Phrase depth (.items false values) ys) :
      Phrase depth (.items true (v :: values)) (xs ++ ys)
  | item {depth : Nat} {v : Value} {values : List Value} {x : Lexeme} {xs ys : List Lexeme}
      (hx : x.token = .comma) (hv : Phrase depth (.value v) xs)
      (h : Phrase depth (.items false values) ys) :
      Phrase depth (.items false (v :: values)) (x :: (xs ++ ys))
  | firstMember {depth : Nat} {name : String} {v : Value} {entries : List (String × Value)}
      {key colon : Lexeme} {xs ys : List Lexeme} (hkey : key.token = .scalar (.text name))
      (hcolon : colon.token = .colon) (hv : Phrase depth (.value v) xs)
      (h : Phrase depth (.members false entries) ys) :
      Phrase depth (.members true ((name, v) :: entries)) (key :: colon :: (xs ++ ys))
  | member {depth : Nat} {name : String} {v : Value} {entries : List (String × Value)}
      {x key colon : Lexeme} {xs ys : List Lexeme} (hx : x.token = .comma)
      (hkey : key.token = .scalar (.text name)) (hcolon : colon.token = .colon)
      (hv : Phrase depth (.value v) xs) (h : Phrase depth (.members false entries) ys) :
      Phrase depth (.members false ((name, v) :: entries)) (x :: key :: colon :: (xs ++ ys))

/-- The text is one object with these members, nested no deeper than the reader follows. -/
def IsObject (bytes : List UInt8) (entries : List (String × Value)) : Prop :=
  ∃ x xs depth, lexemes bytes = x :: xs ∧ x.token = .leftBrace ∧
    Phrase depth (.members true entries) xs ∧ depth < Reader.maxDepth

/-- The reader yields these members, and nothing is wrong with the text. -/
def IsReadAs (bytes : List UInt8) (entries : List (String × Value)) : Prop :=
  ∃ members : List Member, members.map Member.entry = entries ∧
    Document.read bytes = .object ⟨members, none, none⟩

namespace Container

theorem value_list (start : Nat) (values : List Value) :
    value ⟨start, .list values.reverse⟩ = .list values := by
  simp [value]

theorem value_object (start : Nat) (members : List Member) :
    value ⟨start, .object members.reverse none⟩ =
      .object (Members.ofList (members.map Member.entry)) := by
  simp [value]

end Container

namespace Reader

variable {nest : List Container} {x : Lexeme}

/-- Where a value is expected, all that closes nothing is taken for one. -/
theorem step_value {expecting : Expecting}
    (he : expecting = .value ∨ expecting = .item ∨ expecting = .firstItem)
    (hx : x.token ≠ .rightBracket) : step (.within nest expecting) x = value nest x := by
  rcases he with rfl | rfl | rfl
  · rfl
  · exact if_neg hx
  · exact if_neg hx

theorem value_scalar {s : Scalar} (hx : x.token = .scalar s) :
    value nest x = give (.scalar s) x.stop nest := by
  rw [value, hx]

theorem value_list (hx : x.token = .leftBracket) (hnest : nest.length < maxDepth) :
    value nest x = .within (⟨x.start, .list []⟩ :: nest) .firstItem := by
  rw [value, hx]
  exact if_pos hnest

theorem value_object (hx : x.token = .leftBrace) (hnest : nest.length < maxDepth) :
    value nest x = .within (⟨x.start, .object [] none⟩ :: nest) .firstKey := by
  rw [value, hx]
  exact if_pos hnest

theorem step_colon {name : String} {start : Nat} {done : List Member} {below : List Container}
    {key colon : Lexeme} {expecting : Expecting}
    (he : expecting = .key ∨ expecting = .firstKey) (hkey : key.token = .scalar (.text name))
    (hcolon : colon.token = .colon) :
    ((step (.within (⟨start, .object done none⟩ :: below) expecting) key).step colon) =
      .within (⟨start, .object done (some ⟨name, colon.start⟩)⟩ :: below) .value := by
  have hname : step (.within (⟨start, .object done none⟩ :: below) expecting) key =
      .within (⟨start, .object done none⟩ :: below) (.colon name) := by
    rcases he with rfl | rfl <;> simp [step, Reader.key, hkey]
  rw [hname]
  simp [step, Reader.colon, hcolon, Container.setKey]

theorem close_inner (top next : Container) (below : List Container) :
    close (top :: next :: below) = .within (next.give top.value top.start :: below) .separator :=
  rfl

/-- What the reader makes of a part of a text, with an open container around it. -/
def Gets (depth : Nat) (xs : List Lexeme) : Part → Prop
  | .value v => ∀ top below expecting,
      (expecting = .value ∨ expecting = .item ∨ expecting = .firstItem) →
      below.length + 1 + depth ≤ maxDepth →
      ∃ complaint, xs.foldl step (.within (top :: below) expecting) =
        .within (top.give v complaint :: below) .separator
  | .items first values => ∀ start done below, below.length + 1 + depth ≤ maxDepth →
      xs.foldl step (.within (⟨start, .list done⟩ :: below)
          (if first then .firstItem else .separator)) =
        close (⟨start, .list (values.reverse ++ done)⟩ :: below)
  | .members first entries => ∀ start done below, below.length + 1 + depth ≤ maxDepth →
      ∃ more : List Member, more.map Member.entry = entries ∧
        xs.foldl step (.within (⟨start, .object done none⟩ :: below)
            (if first then .firstKey else .separator)) =
          close (⟨start, .object (more.reverse ++ done) none⟩ :: below)

/-- A value and what follows it in a list. -/
theorem foldl_item {depth : Nat} {v : Value} {values : List Value} {xs ys : List Lexeme}
    (hv : Gets depth xs (.value v)) (h : Gets depth ys (.items false values))
    {expecting : Expecting} (he : expecting = .item ∨ expecting = .firstItem)
    (start : Nat) (done : List Value) {below : List Container}
    (hdepth : below.length + 1 + depth ≤ maxDepth) :
    (xs ++ ys).foldl step (.within (⟨start, .list done⟩ :: below) expecting) =
      close (⟨start, .list ((v :: values).reverse ++ done)⟩ :: below) := by
  obtain ⟨complaint, hvalue⟩ := hv ⟨start, .list done⟩ below expecting (.inr he) hdepth
  rw [List.foldl_append, hvalue, List.reverse_cons, List.append_assoc]
  exact h start (v :: done) below hdepth

/-- A key, its value and what follows them in an object. -/
theorem foldl_member {depth : Nat} {name : String} {v : Value}
    {entries : List (String × Value)} {key colon : Lexeme} {xs ys : List Lexeme}
    (hkey : key.token = .scalar (.text name)) (hcolon : colon.token = .colon)
    (hv : Gets depth xs (.value v)) (h : Gets depth ys (.members false entries))
    {expecting : Expecting} (he : expecting = .key ∨ expecting = .firstKey)
    (start : Nat) (done : List Member) {below : List Container}
    (hdepth : below.length + 1 + depth ≤ maxDepth) :
    ∃ more : List Member, more.map Member.entry = (name, v) :: entries ∧
      (key :: colon :: (xs ++ ys)).foldl step
          (.within (⟨start, .object done none⟩ :: below) expecting) =
        close (⟨start, .object (more.reverse ++ done) none⟩ :: below) := by
  obtain ⟨complaint, hvalue⟩ := hv ⟨start, .object done (some ⟨name, colon.start⟩)⟩ below .value
    (.inl rfl) hdepth
  let member : Member := ⟨⟨name, colon.start⟩, v, complaint⟩
  obtain ⟨more, hmore, hrest⟩ := h start (member :: done) below hdepth
  refine ⟨member :: more, congrArg ((name, v) :: ·) hmore, ?_⟩
  rw [List.foldl_cons, List.foldl_cons, step_colon he hkey hcolon, List.foldl_append, hvalue,
    List.reverse_cons, List.append_assoc]
  exact hrest

/-- Every part of a text is read for what it stands for. -/
theorem gets_of_phrase {depth : Nat} {part : Part} {xs : List Lexeme} (h : Phrase depth part xs) :
    Gets depth xs part := by
  induction h with
  | @scalar depth s x hx =>
    intro top below expecting he hdepth
    refine ⟨x.stop, ?_⟩
    rw [List.foldl_cons, step_value he (by simp [hx]), value_scalar hx]
    rfl
  | @list depth values x xs hx h ih =>
    intro top below expecting he hdepth
    refine ⟨x.start, ?_⟩
    rw [List.foldl_cons, step_value he (by simp [hx]),
      value_list hx (by rw [List.length_cons]; omega)]
    refine (ih x.start [] (top :: below) (by rw [List.length_cons]; omega)).trans ?_
    rw [close_inner, List.append_nil, Container.value_list]
  | @object depth entries x xs hx h ih =>
    intro top below expecting he hdepth
    refine ⟨x.start, ?_⟩
    rw [List.foldl_cons, step_value he (by simp [hx]),
      value_object hx (by rw [List.length_cons]; omega)]
    obtain ⟨more, hmore, hrest⟩ := ih x.start [] (top :: below) (by rw [List.length_cons]; omega)
    refine hrest.trans ?_
    rw [close_inner, List.append_nil, Container.value_object, hmore]
  | @bracket depth first x hx =>
    intro start done below hdepth
    cases first <;> simp [step, separator, Container.found, hx]
  | @brace depth first x hx =>
    intro start done below hdepth
    refine ⟨[], rfl, ?_⟩
    cases first <;> simp [step, separator, Container.found, hx]
  | firstItem hv h ihv ih =>
    intro start done below hdepth
    exact foldl_item ihv ih (.inr rfl) start done hdepth
  | item hx hv h ihv ih =>
    intro start done below hdepth
    rw [← foldl_item ihv ih (.inl rfl) start done hdepth, List.foldl_cons]
    simp [step, separator, Container.found, hx]
  | firstMember hkey hcolon hv h ihv ih =>
    intro start done below hdepth
    exact foldl_member hkey hcolon ihv ih (.inr rfl) start done hdepth
  | member hx hkey hcolon hv h ihv ih =>
    intro start done below hdepth
    obtain ⟨more, hmore, hrest⟩ := foldl_member hkey hcolon ihv ih (.inl rfl) start done hdepth
    refine ⟨more, hmore, ?_⟩
    rw [← hrest, List.foldl_cons]
    simp [step, separator, Container.found, hx]

end Reader

/-- The reader yields the members of an object in the order of the text. -/
theorem IsObject.isReadAs {bytes : List UInt8} {entries : List (String × Value)}
    (h : IsObject bytes entries) : IsReadAs bytes entries := by
  obtain ⟨x, xs, depth, hbytes, hx, hrest, hdepth⟩ := h
  obtain ⟨members, hmembers, hread⟩ := Reader.gets_of_phrase hrest x.start [] []
    (by rw [List.length_nil]; omega)
  refine ⟨members, hmembers, ?_⟩
  rw [Document.read, hbytes]
  simp only [hx]
  rw [if_pos rfl] at hread
  rw [hread, List.append_nil]
  simp [Reader.close, Container.members, Reader.finish]

/-- Another value than an object is not taken for one, however deep it is nested. -/
theorem read_of_not_object {bytes : List UInt8} {depth : Nat} {v : Value}
    (h : Phrase depth (.value v) (lexemes bytes)) (hv : ∀ members, v ≠ .object members) :
    ∃ found complaint, Document.read bytes = .other found complaint := by
  rw [Document.read]
  generalize lexemes bytes = xs at h
  cases h with
  | scalar hx =>
    simp only [hx]
    exact ⟨_, _, rfl⟩
  | list hx h =>
    simp only [hx]
    exact ⟨_, _, rfl⟩
  | object hx h => exact absurd rfl (hv _)

end SheddingQueue.Json
