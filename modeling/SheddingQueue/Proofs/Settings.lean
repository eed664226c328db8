import Mathlib.Data.List.Induction
import SheddingQueue.Proofs.Build

/-!
# What becomes of choices

Of all the choices that are made for a queue the last one of each kind counts (`ofList_eq`), and
what `Settings.build` does with the settings is decided by four checks in a fixed order.
`Settings.inspect` makes these checks with a log at hand, which stays as it is if one of them fails
(`run_inspect`). `build_ofList` says what comes of any choices.
-/

namespace SheddingQueue

namespace Setting

def capacity? : Setting → Option Nat
  | .capacity n => some n
  | _ => none

def policy? : Setting → Option Policy
  | .policy p => some p
  | _ => none

def threshold? : Setting → Option Threshold
  | .threshold t => some t
  | _ => none

def poll? : Setting → Option Duration
  | .poll d => some d
  | _ => none

/-- The last choice of a kind, and the usual one if there is none. -/
def last {β : Type} (kind : Setting → Option β) (usual : β) (choices : List Setting) : β :=
  (choices.filterMap kind).getLast?.getD usual

theorem last_append_single {β : Type} (kind : Setting → Option β) (usual : β)
    (choices : List Setting) (choice : Setting) :
    last kind usual (choices ++ [choice]) = (kind choice).getD (last kind usual choices) := by
  rw [last, List.filterMap_append]
  cases h : kind choice with
  | none => simp [h, last]
  | some b => simp [h]

end Setting

/-- Of the items offered to an open queue as many are stored as find room. -/
theorem Queue.Stores.toList_foldl_offer {α : Type} {q : Queue α} {n : Nat} {xs : List α}
    (hq : q.Stores n xs) (hc : q.closed = false) (ys : List α) :
    (ys.foldl (fun q y => (q.offer y).2) q).toList = (xs ++ ys).take (n - 1) := by
  induction ys generalizing q xs with
  | nil =>
    have hlt := hq.length_lt
    rw [List.foldl_nil, hq.toList_eq, List.append_nil, List.take_of_length_le (by omega)]
  | cons y ys ih =>
    rw [List.foldl_cons]
    rcases hq.offer_cases y with ⟨hclosed, -⟩ | ⟨-, hfull, hoffer⟩ | ⟨-, -, r, hoffer, hr, hstores⟩
    · cases hc.symm.trans hclosed
    · have hlen : n - 1 = xs.length := by omega
      rw [hoffer, ih hq hc, hlen, List.take_left, List.take_left]
    · rw [hoffer, ih hstores hr, List.append_assoc, List.singleton_append]

namespace Settings

open Setting (last)

variable {α : Type}

/-- A later choice replaces the earlier ones of its kind, and no other ones. -/
theorem ofList_eq (choices : List Setting) :
    ofList choices = ⟨last Setting.capacity? 50 choices, last Setting.policy? .drop choices,
      last Setting.threshold? .half choices,
      last Setting.poll? (.ofMilliseconds 10) choices⟩ := by
  induction choices using List.reverseRecOn with
  | nil => rfl
  | append_singleton choices choice ih =>
    have hchoose : ofList (choices ++ [choice]) = (ofList choices).choose choice := by
      rw [ofList, List.foldl_append]
      rfl
    rw [hchoose, ih]
    simp only [Setting.last_append_single]
    cases choice <;> rfl

/-! ## The checks -/

/-- The number of slots is one of those that are allowed. -/
def Allowed (slots : Nat) : Prop := 2 ≤ slots ∧ slots ≤ 10000

/-- What the checks come to. The first one that fails decides. -/
theorem fault?_cases (s : Settings) :
    (¬ Allowed s.capacity ∧ s.fault? = some (.capacity s.capacity)) ∨
    (Allowed s.capacity ∧ s.threshold = .fixed 0 ∧ s.fault? = some (.threshold 0)) ∨
    (Allowed s.capacity ∧ s.threshold ≠ .fixed 0 ∧ s.poll.nanoseconds = 0 ∧
      s.fault? = some (.poll s.poll)) ∨
    (Allowed s.capacity ∧ s.threshold ≠ .fixed 0 ∧ s.poll.nanoseconds ≠ 0 ∧
      ∃ d, s.policy = .retry d ∧ d.nanoseconds = 0 ∧ s.fault? = some (.retryInterval d)) ∨
    (Allowed s.capacity ∧ s.threshold ≠ .fixed 0 ∧ s.poll.nanoseconds ≠ 0 ∧
      (∀ d, s.policy = .retry d → d.nanoseconds ≠ 0) ∧ s.fault? = none) := by
  have hallowed : Allowed s.capacity ↔ ¬ (s.capacity < minCapacity ∨ maxCapacity < s.capacity) := by
    rw [Allowed, minCapacity, maxCapacity]
    omega
  have hzero (d : Duration) : d.isZero = true ↔ d.nanoseconds = 0 := beq_iff_eq
  by_cases hcapacity : Allowed s.capacity
  swap
  · exact .inl ⟨hcapacity, if_pos (not_not.mp (mt hallowed.mpr hcapacity))⟩
  by_cases hthreshold : s.threshold = .fixed 0
  · refine .inr (.inl ⟨hcapacity, hthreshold, ?_⟩)
    rw [fault?, if_neg (hallowed.mp hcapacity), if_pos hthreshold]
  by_cases hpoll : s.poll.nanoseconds = 0
  · refine .inr (.inr (.inl ⟨hcapacity, hthreshold, hpoll, ?_⟩))
    rw [fault?, if_neg (hallowed.mp hcapacity), if_neg hthreshold, if_pos ((hzero _).mpr hpoll)]
  refine .inr (.inr (.inr ?_))
  rw [fault?, if_neg (hallowed.mp hcapacity), if_neg hthreshold, if_neg (mt (hzero _).mp hpoll)]
  cases s.policy with
  | drop =>
    refine .inr ⟨hcapacity, hthreshold, hpoll, fun d hd => ?_, rfl⟩
    cases hd
  | retry d =>
    by_cases hd : d.nanoseconds = 0
    · exact .inl ⟨hcapacity, hthreshold, hpoll, d, rfl, hd, if_pos ((hzero d).mpr hd)⟩
    · refine .inr ⟨hcapacity, hthreshold, hpoll, fun e he => ?_, if_neg (mt (hzero d).mp hd)⟩
      cases he
      exact hd

theorem build_eq_error_iff {s : Settings} {e : SettingsError} :
    s.build α = .error e ↔ s.fault? = some e := by
  rw [build]
  cases s.fault? <;> simp

theorem build_of_none {s : Settings} (h : s.fault? = none) :
    s.build α = .ok ⟨Queue.empty s.capacity, s.capacity, s.policy, s.watch, s.warnings⟩ := by
  rw [build, h]

/-! ## The log -/

/-- Work out the threshold, with a warning if it cannot be reached. -/
def settle (s : Settings) : ExceptT SettingsError (StateM (List Event)) Nat := do
  let threshold := s.threshold.resolve s.capacity
  if s.capacity - 1 ≤ threshold then
    modify fun log => log ++ [.noted (.neverSheds threshold (s.capacity - 1))]
  return threshold

/-- The checks, one after another, with a log at hand. What has been noted in the log stays there
when a check fails. -/
def inspect (s : Settings) : ExceptT SettingsError (StateM (List Event)) Nat := do
  if s.capacity < minCapacity ∨ maxCapacity < s.capacity then throw (.capacity s.capacity)
  if s.threshold = .fixed 0 then throw (.threshold 0)
  if s.poll.isZero then throw (.poll s.poll)
  if let .retry d := s.policy then
    if d.isZero then throw (.retryInterval d)
  s.settle

theorem run_settle (s : Settings) (log : List Event) :
    s.settle.run.run log = (.ok s.sheddingAt, log ++ s.warnings) := by
  have hnever : s.neverSheds = true ↔ s.capacity - 1 ≤ s.threshold.resolve s.capacity :=
    decide_eq_true_iff
  rw [settle, warnings]
  simp only [hnever]
  split
  · rfl
  · rw [List.append_nil]
    rfl

theorem run_inspect (s : Settings) (log : List Event) :
    s.inspect.run.run log = match s.fault? with
      | some e => (.error e, log)
      | none => (.ok s.sheddingAt, log ++ s.warnings) := by
  unfold inspect fault?
  by_cases hcapacity : s.capacity < minCapacity ∨ maxCapacity < s.capacity
  · rw [if_pos hcapacity, if_pos hcapacity]
    rfl
  rw [if_neg hcapacity, if_neg hcapacity]
  by_cases hthreshold : s.threshold = .fixed 0
  · rw [if_pos hthreshold, if_pos hthreshold]
    rfl
  rw [if_neg hthreshold, if_neg hthreshold]
  by_cases hpoll : s.poll.isZero = true
  · rw [if_pos hpoll, if_pos hpoll]
    rfl
  rw [if_neg hpoll, if_neg hpoll]
  cases s.policy with
  | drop => exact run_settle s log
  | retry d =>
    by_cases hd : d.isZero = true
    · simp only [hd]
      rfl
    · simp only [hd]
      exact run_settle s log

/-- What the checks do with a log is what `build` says: a failing build leaves it as it is. -/
theorem run_inspect_of_build (α : Type) (s : Settings) (log : List Event) :
    s.inspect.run.run log = match s.build α with
      | .error e => (.error e, log)
      | .ok b => (.ok b.watch.threshold, log ++ b.events) := by
  rw [run_inspect]
  cases h : s.fault? with
  | some e => rw [build_eq_error_iff.mpr h]
  | none =>
    rw [build_of_none h]
    rfl

/-! ## What is built -/

/-- The threshold that was asked for is the one that is worked with. A half is rounded up, so that
fewer than half of the slots stay below it. -/
structure Resolves (capacity : Nat) (threshold : Threshold) (frames : Nat) : Prop where
  pos : 1 ≤ frames
  fixed : ∀ n, threshold = .fixed n → frames = n
  half : threshold = .half → ∀ waiting, frames ≤ waiting ↔ capacity ≤ 2 * waiting

theorem resolves_resolve {capacity : Nat} {threshold : Threshold} (hc : 2 ≤ capacity)
    (ht : threshold ≠ .fixed 0) : Resolves capacity threshold (threshold.resolve capacity) := by
  cases threshold with
  | fixed n =>
    have hn : n ≠ 0 := fun hn => ht (hn ▸ rfl)
    exact ⟨Nat.one_le_iff_ne_zero.mpr hn, fun m hm => Threshold.fixed.inj hm, nofun⟩
  | half =>
    have hhalf : Threshold.half.resolve capacity = (capacity + 1) / 2 := rfl
    rw [hhalf]
    exact ⟨by omega, nofun, fun _ waiting => by omega⟩

/-- A new queue, and what was settled for it. -/
structure Fresh (b : Built α) (capacity : Nat) (policy : Policy) (threshold : Threshold)
    (poll : Duration) : Prop where
  closed : b.queue.closed = false
  stores : b.queue.Stores capacity []
  capacity_eq : b.capacity = capacity
  policy_eq : b.policy = policy
  poll_eq : b.watch.poll = poll
  threshold : Resolves capacity threshold b.watch.threshold
  /-- It takes one item fewer than it has slots, and this is at least one. -/
  usable : 1 ≤ b.capacity - 1 ∧
    ∀ xs : List α, (xs.foldl (fun q x => (q.offer x).2) b.queue).toList = xs.take (b.capacity - 1)

theorem fresh_of_none {s : Settings} (hallowed : Allowed s.capacity) (ht : s.threshold ≠ .fixed 0)
    (h : s.fault? = none) :
    ∃ b : Built α, s.build α = .ok b ∧ Fresh b s.capacity s.policy s.threshold s.poll := by
  obtain ⟨hmin, -⟩ := hallowed
  have hstores : (Queue.empty s.capacity : Queue α).Stores s.capacity [] :=
    Queue.stores_empty (by omega)
  refine ⟨_, build_of_none h, rfl, hstores, rfl, rfl, rfl, resolves_resolve hmin ht, ?_, ?_⟩
  · show 1 ≤ s.capacity - 1
    omega
  · exact hstores.toList_foldl_offer rfl

/-- What comes of building with a capacity, a policy, a threshold and a sleep. -/
structure Decided (capacity : Nat) (policy : Policy) (threshold : Threshold) (poll : Duration)
    (result : Except SettingsError (Built α)) : Prop where
  capacity_iff : ∀ n, result = .error (.capacity n) ↔
    n = capacity ∧ ¬ Allowed capacity
  threshold_iff : ∀ n, result = .error (.threshold n) ↔
    n = 0 ∧ Allowed capacity ∧ threshold = .fixed 0
  poll_iff : ∀ d, result = .error (.poll d) ↔
    d = poll ∧ Allowed capacity ∧ threshold ≠ .fixed 0 ∧ poll.nanoseconds = 0
  retryInterval_iff : ∀ d, result = .error (.retryInterval d) ↔
    Allowed capacity ∧ threshold ≠ .fixed 0 ∧ poll.nanoseconds ≠ 0 ∧
      policy = .retry d ∧ d.nanoseconds = 0
  fresh : Allowed capacity → threshold ≠ .fixed 0 → poll.nanoseconds ≠ 0 →
    (∀ d, policy = .retry d → d.nanoseconds ≠ 0) →
    ∃ b, result = .ok b ∧ Fresh b capacity policy threshold poll

theorem decided_build (s : Settings) :
    Decided s.capacity s.policy s.threshold s.poll (s.build α) := by
  have hcases := s.fault?_cases
  refine ⟨fun n => ?_, fun n => ?_, fun d => ?_, fun d => ?_, fun hallowed ht hp hr => ?_⟩
  case refine_5 =>
    have hnone : s.fault? = none := by grind
    exact fresh_of_none hallowed ht hnone
  all_goals
    rw [build_eq_error_iff]
    grind

/-- Of each kind of choice only the last one counts, for what is built and for what is noted. A
build that fails notes nothing. -/
theorem build_ofList (α : Type) (choices : List Setting) :
    let capacity := last Setting.capacity? 50 choices
    let policy := last Setting.policy? .drop choices
    let threshold := last Setting.threshold? .half choices
    let poll := last Setting.poll? (.ofMilliseconds 10) choices
    let s := ofList choices
    Decided capacity policy threshold poll (s.build α) ∧
      (∀ log, s.inspect.run.run log = match s.build α with
        | .error e => (.error e, log)
        | .ok b => (.ok b.watch.threshold, log ++ b.events)) ∧
      ∀ choices' : List Setting,
        last Setting.capacity? 50 choices' = capacity →
        last Setting.policy? .drop choices' = policy →
        last Setting.threshold? .half choices' = threshold →
        last Setting.poll? (.ofMilliseconds 10) choices' = poll →
        (ofList choices').build α = s.build α ∧
          ∀ log, (ofList choices').inspect.run.run log = s.inspect.run.run log := by
  intro capacity policy threshold poll s
  have hs : s = ⟨capacity, policy, threshold, poll⟩ := ofList_eq choices
  refine ⟨?_, run_inspect_of_build α s, fun choices' hcapacity hpolicy hthreshold hpoll => ?_⟩
  · rw [hs]
    exact decided_build ⟨capacity, policy, threshold, poll⟩
  · have hsame : ofList choices' = s := by
      rw [hs, ofList_eq, hcapacity, hpolicy, hthreshold, hpoll]
    rw [hsame]
    exact ⟨rfl, fun _ => rfl⟩

/-- A capacity that is too small and a sleep of no time do no harm if they are replaced. -/
theorem build_ofList_of_replaced :
    let choices : List Setting :=
      [.capacity 1, .policy (.retry ⟨0⟩), .poll ⟨0⟩, .capacity 7, .policy .drop,
        .poll (.ofMilliseconds 10)]
    ∃ b : Built Nat, (ofList choices).build Nat = .ok b ∧
      Fresh b 7 .drop .half (.ofMilliseconds 10) ∧ b.watch.threshold = 4 ∧
      (ofList [.capacity 7]).build Nat = .ok b := by
  intro choices
  obtain ⟨hdecided, -, hsame⟩ := build_ofList Nat choices
  have hallowed : Allowed 7 := by
    rw [Allowed]
    decide
  obtain ⟨b, hb, hfresh⟩ := hdecided.fresh hallowed (by decide) (by decide) nofun
  obtain ⟨hagain, -⟩ := hsame [.capacity 7] rfl rfl rfl rfl
  have hhalf := hfresh.threshold.half rfl
  have hthreshold : b.watch.threshold = 4 :=
    Nat.le_antisymm ((hhalf 4).mpr (by decide)) (Nat.lt_of_not_le (mt (hhalf 3).mp (by decide)))
  exact ⟨b, hb, hfresh, hthreshold, hagain.trans hb⟩

end Settings

end SheddingQueue
