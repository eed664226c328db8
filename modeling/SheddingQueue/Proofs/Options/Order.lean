import Mathlib.Data.List.Nodup
import SheddingQueue.Proofs.Options.Arguments
import SheddingQueue.Proofs.Options.Threshold

/-!
# Options in any order and spelling

A `Choice` is an option that is given a text that suits it. Choices of different options can be
made in any order and each in either spelling: every option has the value that was chosen for it,
or its usual one (`Took`, by induction over the choices). A second choice of the same option is
refused, wherever it is made. `parse_any_order` puts this together.
-/

namespace SheddingQueue.Options

/-- A value of an option. -/
inductive Value where
  | count (n : Nat)
  | threshold (t : Threshold)
  | mode (m : Mode)
  | address (a : Option SocketAddress)
  deriving DecidableEq, Repr

/-- The value that an option has. -/
def get (o : Options) : Name → Value
  | .capacity => .count o.capacity
  | .threshold => .threshold o.threshold
  | .poll => .count o.pollMs
  | .mode => .mode o.mode
  | .retry => .count o.retryMs
  | .frames => .count o.frames
  | .feed => .count o.feedMs
  | .render => .count o.renderMs
  | .metrics => .address o.metrics

/-- Give an option a value. One of another kind is left out of account. -/
def put (o : Options) : Name → Value → Options
  | .capacity, .count n => { o with capacity := n }
  | .threshold, .threshold t => { o with threshold := t }
  | .poll, .count n => { o with pollMs := n }
  | .mode, .mode m => { o with mode := m }
  | .retry, .count n => { o with retryMs := n }
  | .frames, .count n => { o with frames := n }
  | .feed, .count n => { o with feedMs := n }
  | .render, .count n => { o with renderMs := n }
  | .metrics, .address a => { o with metrics := a }
  | _, _ => o

/-- The value of an option that is not given. -/
def Name.usual : Name → Value
  | .capacity => .count 50
  | .threshold => .threshold .half
  | .poll => .count 10
  | .mode => .mode .drop
  | .retry => .count 100
  | .frames => .count 200
  | .feed => .count 5
  | .render => .count 20
  | .metrics => .address none

/-- The options whose value is a count. -/
def counted : List Name := [.capacity, .poll, .retry, .frames, .feed, .render]

/-- A text suits an option and stands for a value of it. -/
inductive Means : Name → String → Value → Prop where
  | count {n : Name} {s : String} {k : Nat} (hn : n ∈ counted) (h : Count.Denotes s k) :
      Means n s (.count k)
  | threshold {s : String} {t : Threshold} (h : readThreshold s = .ok t) :
      Means .threshold s (.threshold t)
  | drop : Means .mode "drop" (.mode .drop)
  | retry : Means .mode "retry" (.mode .retry)

/-- An option that is given a text that suits it, and the value that is meant. -/
structure Choice extends Given where
  value : Value
  means : Means name text value

/-- The arguments of some choices. -/
def argumentsOf (cs : List Choice) : List String := cs.flatMap fun c => c.arguments

/-- The options that are chosen. -/
def namesOf (cs : List Choice) : List Name := cs.map fun c => c.name

variable {n : Name} {s : String} {v : Value} {c : Choice} {cs : List Choice} {o o' : Options}
  {p q : Progress}

/-! ## One choice -/

theorem Means.clear (h : Means n s v) : '-' ∉ s.toList.head? := by
  intro hhead
  have hmem : '-' ∈ s.toList := List.mem_of_mem_head? hhead
  cases h with
  | count hn h => exact absurd (h.mem hmem) (by decide)
  | @threshold _ t h =>
    cases t with
    | half => exact absurd ((readThreshold_eq_half_iff.mp h).mem hmem) (by decide)
    | fixed k => exact absurd ((readThreshold_eq_fixed_iff.mp h).mem hmem) (by decide)
  | drop => exact absurd hmem (by decide)
  | retry => exact absurd hmem (by decide)

theorem Means.ne_metrics (h : Means n s v) : n ≠ .metrics := by
  cases h with
  | count hn h =>
    rintro rfl
    exact absurd hn (by decide)
  | threshold h => nofun
  | drop => nofun
  | retry => nofun

theorem get_put_of_ne {m : Name} (h : m ≠ n) (o : Options) (v : Value) :
    (o.put n v).get m = o.get m := by
  cases n <;> cases v <;> first | rfl | (cases m <;> first | rfl | exact absurd rfl h)

/-- A text that suits an option gives it the value that is meant. -/
theorem set_of_means (h : Means n s v) (o : Options) :
    o.set n s = .ok (o.put n v) ∧ (o.put n v).get n = v := by
  cases h with
  | @count _ _ k hn h =>
    have hread (n : Name) : readCount n s = .ok k := by
      rw [readCount, Count.read_eq_ok_iff.mpr h]
      rfl
    simp only [counted, List.mem_cons, List.not_mem_nil, or_false] at hn
    rcases hn with rfl | rfl | rfl | rfl | rfl | rfl
    all_goals
      rw [set, hread]
      exact ⟨rfl, rfl⟩
  | threshold h =>
    rw [set, h]
    exact ⟨rfl, rfl⟩
  | drop => exact ⟨rfl, rfl⟩
  | retry => exact ⟨rfl, rfl⟩

theorem assign_of_mem (h : n ∈ p.given) (s : String) : p.assign n s = .error (.repeated n) :=
  if_pos h

/-- The options that have been given are told apart by their values. -/
theorem eq_of_get (h : ∀ n, o.get n = o'.get n) : o = o' := by
  have hcapacity := Value.count.inj (h .capacity)
  have hthreshold := Value.threshold.inj (h .threshold)
  have hpoll := Value.count.inj (h .poll)
  have hmode := Value.mode.inj (h .mode)
  have hretry := Value.count.inj (h .retry)
  have hframes := Value.count.inj (h .frames)
  have hfeed := Value.count.inj (h .feed)
  have hrender := Value.count.inj (h .render)
  have hmetrics := Value.address.inj (h .metrics)
  cases o
  cases o'
  simp_all

/-! ## All choices -/

/-- What some choices lead to: what was chosen has the value that was meant, and the rest is as it
was. -/
structure Took (cs : List Choice) (p q : Progress) : Prop where
  given : ∀ n, n ∈ q.given ↔ n ∈ namesOf cs ∨ n ∈ p.given
  chosen : ∀ c ∈ cs, q.options.get c.name = c.value
  other : ∀ n, n ∉ namesOf cs → q.options.get n = p.options.get n

theorem assign_took (c : Choice) (h : c.name ∉ p.given) :
    ∃ q, p.assign c.name c.text = .ok q ∧ Took [c] p q := by
  obtain ⟨hset, hself⟩ := set_of_means c.means p.options
  refine ⟨⟨p.options.put c.name c.value, c.name :: p.given, none⟩, ?_, ?_, ?_, ?_⟩
  · rw [Progress.assign, if_neg h, hset]
    rfl
  · intro n
    simp [namesOf]
  · intro d hd
    rw [List.mem_singleton.mp hd]
    exact hself
  · intro n hn
    exact get_put_of_ne (mt List.mem_singleton.mpr hn) p.options c.value

theorem Took.cons {r : Progress} (h : Took [c] p q) (hrest : Took cs q r)
    (hnew : c.name ∉ namesOf cs) : Took (c :: cs) p r where
  given n := by
    rw [hrest.given, h.given]
    simp only [namesOf, List.map_cons, List.map_nil, List.mem_cons, List.not_mem_nil, or_false]
    exact ⟨fun h => by tauto, fun h => by tauto⟩
  chosen d hd := by
    rcases List.mem_cons.mp hd with rfl | hd
    · rw [hrest.other _ hnew]
      exact h.chosen _ (List.mem_singleton_self _)
    · exact hrest.chosen d hd
  other n hn := by
    obtain ⟨hne, hn⟩ := not_or.mp (mt List.mem_cons.mpr hn)
    rw [hrest.other n hn]
    exact h.other n (mt List.mem_singleton.mp hne)

/-- Choices of different options are all made. -/
theorem assignAll_took (hnodup : (namesOf cs).Nodup) (hnew : ∀ n ∈ namesOf cs, n ∉ p.given) :
    ∃ q, p.assignAll (cs.map Choice.toGiven) = .ok q ∧ Took cs p q := by
  induction cs generalizing p with
  | nil => exact ⟨p, rfl, by simp [namesOf], nofun, fun n _ => rfl⟩
  | cons c cs ih =>
    obtain ⟨hc, hnodup⟩ := List.nodup_cons.mp hnodup
    obtain ⟨q, hq, htook⟩ := assign_took c (hnew c.name List.mem_cons_self)
    have hnew : ∀ n ∈ namesOf cs, n ∉ q.given := by
      intro n hn hgiven
      rcases (htook.given n).mp hgiven with hself | hbefore
      · exact hc (List.mem_singleton.mp hself ▸ hn)
      · exact hnew n (List.mem_cons_of_mem _ hn) hbefore
    obtain ⟨r, hr, hrest⟩ := ih hnodup hnew
    refine ⟨r, ?_, htook.cons hrest hc⟩
    rw [List.map_cons, assignAll_cons, hq]
    exact hr

/-- A second choice of an option is refused, whatever comes behind it. -/
theorem assignAll_repeated (hnodup : (namesOf cs).Nodup) (hnew : ∀ n ∈ namesOf cs, n ∉ p.given)
    (c : Choice) (hc : c.name ∈ namesOf cs) (rest : List Choice) :
    p.assignAll ((cs ++ c :: rest).map Choice.toGiven) = .error (.repeated c.name) := by
  obtain ⟨q, hq, htook⟩ := assignAll_took hnodup hnew
  have hgiven : c.name ∈ q.given := (htook.given c.name).mpr (.inl hc)
  rw [List.map_append, List.map_cons, assignAll_append, hq]
  show q.assignAll (c.toGiven :: rest.map Choice.toGiven) = _
  rw [assignAll_cons, assign_of_mem hgiven]
  rfl

/-! ## Arguments -/

theorem parse_argumentsOf (cs : List Choice) : parse (argumentsOf cs) =
    (Progress.assignAll {} (cs.map Choice.toGiven)).map Progress.options := by
  have hclear : ∀ g ∈ cs.map Choice.toGiven, g.IsClear := by
    intro g hg
    obtain ⟨c, -, rfl⟩ := List.mem_map.mp hg
    exact fun _ => c.means.clear
  rw [← parse_given hclear, List.flatMap_map]
  rfl

theorem get_usual (n : Name) : ({} : Options).get n = n.usual := by
  cases n <;> rfl

/-- The options that choices of different options give: the values that were meant, and the usual
ones for the rest. -/
theorem parse_of_nodup (hnodup : (namesOf cs).Nodup) : ∃ o, parse (argumentsOf cs) = .ok o ∧
    (∀ c ∈ cs, o.get c.name = c.value) ∧ ∀ n, n ∉ namesOf cs → o.get n = n.usual := by
  obtain ⟨q, hq, htook⟩ := assignAll_took hnodup (p := {}) nofun
  refine ⟨q.options, ?_, htook.chosen, fun n hn => ?_⟩
  · rw [parse_argumentsOf, hq]
    rfl
  · rw [htook.other n hn]
    exact get_usual n

theorem parse_of_repeated (hnodup : (namesOf cs).Nodup) (c : Choice) (hc : c.name ∈ namesOf cs)
    (rest : List Choice) :
    parse (argumentsOf (cs ++ c :: rest)) = .error (.repeated c.name) := by
  rw [parse_argumentsOf, assignAll_repeated hnodup (p := {}) nofun c hc]
  rfl

/-- If one of the choices is of an option that is chosen already, the first choices up to a second
one of the same option are of different options. -/
theorem exists_repeated {before after : List Choice} (hnodup : (namesOf (before ++ after)).Nodup)
    (hc : c.name ∈ namesOf (before ++ after)) :
    ∃ cs d rest, before ++ c :: after = cs ++ d :: rest ∧ (namesOf cs).Nodup ∧
      d.name ∈ namesOf cs ∧ d.name = c.name := by
  have happend (cs ds : List Choice) : namesOf (cs ++ ds) = namesOf cs ++ namesOf ds :=
    List.map_append
  by_cases hbefore : c.name ∈ namesOf before
  · rw [happend] at hnodup
    exact ⟨before, c, after, rfl, hnodup.of_append_left, hbefore, rfl⟩
  · -- the choice that was made before comes behind the one that is put in
    rw [happend] at hc
    obtain ⟨d, hd, hname⟩ := List.mem_map.mp ((List.mem_append.mp hc).resolve_left hbefore)
    obtain ⟨between, rest, rfl⟩ := List.append_of_mem hd
    refine ⟨before ++ c :: between, d, rest, by simp, ?_, ?_, hname⟩
    · have hmiddle : (namesOf (before ++ between) ++ d.name :: namesOf rest).Nodup := by
        simpa [namesOf] using hnodup
      rw [List.nodup_middle, hname] at hmiddle
      have hfirst : (c.name :: namesOf (before ++ between)).Nodup :=
        hmiddle.sublist ((List.sublist_append_left _ _).cons_cons _)
      rw [happend] at hfirst
      rw [happend]
      exact List.nodup_middle.mpr hfirst
    · simp [namesOf, hname]

/-- Choices that differ in their order and spelling only, and in how a value is written, give the
same options. -/
theorem parse_of_perm {cs' : List Choice} (hnodup : (namesOf cs).Nodup)
    (hperm : (cs.map fun c => (c.name, c.value)).Perm (cs'.map fun c => (c.name, c.value))) :
    parse (argumentsOf cs) = parse (argumentsOf cs') := by
  have hnames : (namesOf cs).Perm (namesOf cs') := by
    have hfirst := hperm.map Prod.fst
    rwa [List.map_map, List.map_map] at hfirst
  obtain ⟨o, ho, hchosen, hother⟩ := parse_of_nodup hnodup
  obtain ⟨o', ho', hchosen', hother'⟩ := parse_of_nodup (hnames.nodup_iff.mp hnodup)
  rw [ho, ho']
  refine congrArg Except.ok (eq_of_get fun n => ?_)
  by_cases hn : n ∈ namesOf cs
  · obtain ⟨c, hc, rfl⟩ := List.mem_map.mp hn
    obtain ⟨d, hd, hentry⟩ := List.mem_map.mp (hperm.mem_iff.mp (List.mem_map_of_mem hc))
    obtain ⟨hname, hvalue⟩ := Prod.mk.inj hentry
    rw [hchosen c hc, ← hvalue, ← hchosen' d hd, hname]
  · rw [hother n hn, hother' n (mt hnames.mem_iff.mpr hn)]

/-- Options that are given once each, in any order, each in one argument or in two, have exactly the
values that are meant; the options that are not given have their usual values, and no counters are
served. Neither the order nor the spelling matters. An option that is given a second time, anywhere
among the others, stops the reading. -/
theorem parse_any_order :
    (∀ cs : List Choice, (namesOf cs).Nodup → ∃ o, parse (argumentsOf cs) = .ok o ∧
      (∀ c ∈ cs, o.get c.name = c.value) ∧ (∀ n, n ∉ namesOf cs → o.get n = n.usual) ∧
      o.metrics = none) ∧
    (∀ cs cs' : List Choice, (namesOf cs).Nodup →
      (cs.map fun c => (c.name, c.value)).Perm (cs'.map fun c => (c.name, c.value)) →
      parse (argumentsOf cs) = parse (argumentsOf cs')) ∧
    ∀ (before after : List Choice) (c : Choice), (namesOf (before ++ after)).Nodup →
      c.name ∈ namesOf (before ++ after) →
      parse (argumentsOf (before ++ c :: after)) = .error (.repeated c.name) := by
  refine ⟨fun cs hnodup => ?_, fun cs cs' hnodup hperm => parse_of_perm hnodup hperm,
    fun before after c hnodup hc => ?_⟩
  · obtain ⟨o, ho, hchosen, hother⟩ := parse_of_nodup hnodup
    refine ⟨o, ho, hchosen, hother, Value.address.inj (hother .metrics fun hmem => ?_)⟩
    obtain ⟨c, -, hname⟩ := List.mem_map.mp hmem
    exact c.means.ne_metrics hname
  · obtain ⟨cs, d, rest, heq, hcs, hd, hname⟩ := exists_repeated hnodup hc
    rw [heq, ← hname]
    exact parse_of_repeated hcs d hd rest

/-- Three options in two orders and different spellings, and with one of them given twice. -/
theorem parse_any_order_of_three : ∃ o,
    parse ["--threshold", "HALF", "--backpressure=retry", "--capacity", "+030"] = .ok o ∧
      (o.capacity = 30 ∧ o.threshold = .half ∧ o.mode = .retry ∧ o.frames = 200 ∧
        o.metrics = none) ∧
      parse ["--capacity=30", "--threshold=HALF", "--backpressure", "retry"] = .ok o ∧
      parse ["--threshold", "HALF", "--threshold=5", "--backpressure=retry", "--capacity", "+030"] =
        .error (.repeated .threshold) := by
  have hhalf : Means .threshold "HALF" (.threshold .half) :=
    .threshold (readThreshold_eq_half_iff.mpr (isHalf_iff.mpr (by decide)))
  have hfive : Means .threshold "5" (.threshold (.fixed 5)) :=
    .threshold (readThreshold_eq_fixed_iff.mpr (Count.denotes_toString 5))
  have hdigits : ∀ c ∈ ['0', '3', '0'], c.isDigit = true := List.all_eq_true.mp rfl
  have hlong : Means .capacity "+030" (.count 30) :=
    .count (by decide) ⟨['0', '3', '0'], .inr rfl, by decide, hdigits, rfl, by decide⟩
  have hplain : Means .capacity "30" (.count 30) :=
    .count (by decide) (Count.denotes_toString 30)
  let half : Choice := ⟨⟨.threshold, "HALF", false⟩, _, hhalf⟩
  let retry : Choice := ⟨⟨.mode, "retry", true⟩, _, .retry⟩
  let capacity : Choice := ⟨⟨.capacity, "+030", false⟩, _, hlong⟩
  let cs : List Choice := [half, retry, capacity]
  let cs' : List Choice := [⟨⟨.capacity, "30", true⟩, _, hplain⟩,
    ⟨⟨.threshold, "HALF", true⟩, _, hhalf⟩, ⟨⟨.mode, "retry", false⟩, _, .retry⟩]
  have hnodup : (namesOf cs).Nodup := by
    show [Name.threshold, .mode, .capacity].Nodup
    decide
  obtain ⟨o, ho, hchosen, hother, hmetrics⟩ := parse_any_order.1 cs hnodup
  have hhalf : o.get .threshold = .threshold .half := hchosen half (by simp [cs])
  have hmode : o.get .mode = .mode .retry := hchosen retry (by simp [cs])
  have hcapacity : o.get .capacity = .count 30 := hchosen capacity (by simp [cs])
  have hframes : o.get .frames = .count 200 := hother .frames (by
    show Name.frames ∉ [Name.threshold, .mode, .capacity]
    decide)
  have hsame : parse (argumentsOf cs) = parse (argumentsOf cs') :=
    parse_any_order.2.1 cs cs' hnodup (by
      show [(Name.threshold, Value.threshold .half), (.mode, .mode .retry),
        (.capacity, .count 30)].Perm
        [(.capacity, .count 30), (.threshold, .threshold .half), (.mode, .mode .retry)]
      decide)
  have hagain := parse_any_order.2.2 [half] [retry, capacity]
    ⟨⟨.threshold, "5", true⟩, _, hfive⟩ hnodup List.mem_cons_self
  exact ⟨o, ho, ⟨Value.count.inj hcapacity, Value.threshold.inj hhalf, Value.mode.inj hmode,
    Value.count.inj hframes, hmetrics⟩, hsame ▸ ho, hagain⟩

end SheddingQueue.Options
