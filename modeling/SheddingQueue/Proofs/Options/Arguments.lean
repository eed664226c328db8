import SheddingQueue.Options

/-!
# Arguments that give options

An option and the text of its value take one argument or two. `Given` is an option as it is given,
and `parse_given` says what reading such arguments comes to: the texts are assigned one after
another in the order of the arguments, however they are spelled. That a text in an argument of its
own is looked at later than one behind an equals sign makes no difference as long as all arguments
give options.
-/

namespace SheddingQueue.Options

/-- An option with the text of its value. -/
structure Given where
  name : Name
  text : String
  /-- Whether name and text stand in one argument, with an equals sign between them. -/
  joined : Bool
  deriving DecidableEq, Repr

namespace Given

/-- The arguments that give the option. -/
def arguments (g : Given) : List String :=
  if g.joined then ["--" ++ g.name.text ++ "=" ++ g.text] else ["--" ++ g.name.text, g.text]

/-- In an argument of its own the text does not look like an option. -/
def IsClear (g : Given) : Prop := g.joined = false → '-' ∉ g.text.toList.head?

end Given

variable {g : Given} {gs : List Given} {cs value : List Char} {s : String} {n : Name}
  {p q : Progress}

/-! ## One argument -/

theorem longArgument_joined (h : ∀ c ∈ cs, c ≠ '=') (value : List Char) :
    longArgument (cs ++ '=' :: value) =
      .long (String.ofList cs) (some (String.ofList value)) := by
  have hname : ∀ c ∈ cs, (c != '=') = true := fun c hc => bne_iff_ne.mpr (h c hc)
  simp [longArgument, List.takeWhile_append_of_pos hname, List.dropWhile_append_of_pos hname]

theorem longArgument_alone (h : ∀ c ∈ cs, c ≠ '=') :
    longArgument cs = .long (String.ofList cs) none := by
  have hname : ∀ c ∈ cs, (c != '=') = true := fun c hc => bne_iff_ne.mpr (h c hc)
  have htake := @List.takeWhile_append_of_pos Char (· != '=') cs [] hname
  have hdrop := @List.dropWhile_append_of_pos Char (· != '=') cs [] hname
  rw [List.append_nil, List.takeWhile_nil, List.append_nil] at htake
  rw [List.append_nil, List.dropWhile_nil] at hdrop
  rw [longArgument, htake, hdrop]

theorem name_plain (n : Name) : n.text.toList ≠ [] ∧ ∀ c ∈ n.text.toList, c ≠ '=' := by
  cases n <;> simp [Name.text]

theorem flag?_text (n : Name) : flag? n.text = none := by
  cases n <;> rfl

theorem ofText?_text (n : Name) : Name.ofText? n.text = some n := by
  cases n <;> rfl

theorem ofText_long (h : cs ≠ []) (hs : s.toList = '-' :: '-' :: cs) :
    Argument.ofText s = longArgument cs := by
  obtain ⟨c, cs, rfl⟩ := List.exists_cons_of_ne_nil h
  rw [Argument.ofText, hs]
  rfl

theorem ofText_joined (n : Name) (text : String) :
    Argument.ofText ("--" ++ n.text ++ "=" ++ text) = .long n.text (some text) := by
  have hchars : ("--" ++ n.text ++ "=" ++ text).toList =
      '-' :: '-' :: (n.text.toList ++ '=' :: text.toList) := by
    simp [String.toList_append]
  obtain ⟨-, hname⟩ := name_plain n
  rw [ofText_long (by simp) hchars, longArgument_joined hname, String.ofList_toList,
    String.ofList_toList]

theorem ofText_alone (n : Name) : Argument.ofText ("--" ++ n.text) = .long n.text none := by
  have hchars : ("--" ++ n.text).toList = '-' :: '-' :: n.text.toList := by
    simp [String.toList_append]
  obtain ⟨hne, hname⟩ := name_plain n
  rw [ofText_long hne hchars, longArgument_alone hname, String.ofList_toList]

theorem ofText_plain (h : '-' ∉ s.toList.head?) : Argument.ofText s = .plain := by
  unfold Argument.ofText
  split
  · next heq => simp [heq] at h
  · next heq => simp [heq] at h
  · next heq => simp [heq] at h
  · rfl

/-! ## One option -/

theorem long_joined (p : Progress) (n : Name) (text : String) :
    p.long n.text (some text) = p.settle.bind fun p => p.assign n text := by
  simp only [Progress.long, flag?_text, ofText?_text]

theorem long_alone (p : Progress) (n : Name) :
    p.long n.text none = p.settle.map fun p => { p with pending := some (n, none) } := by
  simp only [Progress.long, flag?_text, ofText?_text]

/-- What has been read is settled if no text is pending. -/
theorem pending_of_assign (h : p.assign n s = .ok q) : q.pending = none := by
  unfold Progress.assign at h
  split at h
  · cases h
  · cases hset : p.options.set n s with
    | error stop =>
      rw [hset] at h
      cases h
    | ok o =>
      rw [hset] at h
      cases h
      rfl

theorem settle_of_assign (h : p.assign n s = .ok q) : q.settle = .ok q := by
  rw [Progress.settle, pending_of_assign h]

/-! ## All options -/

/-- Give the options their texts, one after another. -/
def Progress.assignAll (p : Progress) (gs : List Given) : Except Stop Progress :=
  gs.foldlM (fun p g => p.assign g.name g.text) p

theorem assignAll_cons (p : Progress) (g : Given) (gs : List Given) :
    p.assignAll (g :: gs) = (p.assign g.name g.text).bind fun q => q.assignAll gs :=
  List.foldlM_cons

theorem assignAll_append (p : Progress) (gs more : List Given) :
    p.assignAll (gs ++ more) = (p.assignAll gs).bind fun q => q.assignAll more :=
  List.foldlM_append

/-- An option is read when what was pending before it has been settled. Its own text is assigned at
once or is pending then. -/
theorem readAll_cons (h : g.IsClear) (p : Progress) (rest : List String) :
    p.readAll (g.arguments ++ rest) = p.settle.bind fun q =>
      if g.joined then (q.assign g.name g.text).bind fun q => q.readAll rest
      else Progress.readAll { q with pending := some (g.name, some g.text) } rest := by
  rw [Given.arguments]
  cases hjoined : g.joined with
  | true =>
    simp only [if_true, List.singleton_append, Progress.readAll, ofText_joined, long_joined]
    cases p.settle <;> rfl
  | false =>
    simp only [Bool.false_eq_true, if_false, List.cons_append, List.nil_append, Progress.readAll,
      ofText_alone, long_alone, ofText_plain (h hjoined)]
    cases p.settle <;> rfl

/-- Reading the arguments of some options is giving the options their texts in this order. -/
theorem readAll_given (h : ∀ g ∈ gs, g.IsClear) (p : Progress) :
    p.readAll (gs.flatMap Given.arguments) = p.settle.bind fun q => q.assignAll gs := by
  induction gs generalizing p with
  | nil =>
    rw [List.flatMap_nil, Progress.readAll]
    cases p.settle <;> rfl
  | cons g gs ih =>
    have ih := ih fun g hmem => h g (List.mem_cons_of_mem _ hmem)
    rw [List.flatMap_cons, readAll_cons (h g List.mem_cons_self)]
    congr 1
    funext q
    rw [assignAll_cons]
    split
    · cases hassign : q.assign g.name g.text with
      | error stop => rfl
      | ok r =>
        show r.readAll (gs.flatMap Given.arguments) = r.assignAll gs
        rw [ih, settle_of_assign hassign]
        rfl
    · rw [ih]
      rfl

/-- The arguments of some options stand for giving the options their texts in this order. -/
theorem parse_given (h : ∀ g ∈ gs, g.IsClear) :
    parse (gs.flatMap Given.arguments) =
      (Progress.assignAll {} gs).map Progress.options := by
  rw [parse, readAll_given h]
  rfl

end SheddingQueue.Options
