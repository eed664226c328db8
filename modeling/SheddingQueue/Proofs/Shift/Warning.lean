import SheddingQueue.Proofs.Shift.Draining

/-!
# When nothing is shed

Whoever makes a queue is warned if the threshold lies above every backlog that a taken frame can
leave behind. But the worker counts the backlog only after it has let go of the queue, and by then
the producers may have filled it again, so that all usable slots count. Frames are safe exactly if
the threshold lies above that number too, which is one more than the warning asks for.
-/

namespace SheddingQueue

variable {n threshold waiting : Nat} {xs ys : List Frame} {q : Queue Frame} {verdict : Verdict}
  {renderer : Nat → Verdict} {f : Frame}

/-- A frame is shed exactly if the threshold is reached behind it. -/
theorem Worker.settle_shed_iff :
    (Worker.settle threshold waiting verdict f).1 = .shed ↔ threshold ≤ waiting := by
  unfold Worker.settle Consumer.judge
  by_cases h : threshold ≤ waiting
  · simp [h]
  · rw [if_neg h]
    refine ⟨?_, fun hle => absurd hle h⟩
    intro hs
    cases hi : f.image with
    | none => simp [hi] at hs
    | some image =>
      rw [hi] at hs
      cases hv : verdict f image <;> simp [hv, Consumer.conclude] at hs

namespace Shift

variable {t : List Move} {l : Move} {s : Shift} {s' : Shift} {c c' : Crowd Frame}

/-- Whether no frame is shed in a shift at a new queue, whatever any number of producers do. -/
def Safe (b : Built Frame) (renderer : Nat → Verdict) : Prop :=
  ∀ m t s, Run (Step b.watch.threshold renderer) { crowd := Crowd.start b.queue m } t s →
    Crowd.Enqueues b.policy (others t) → ∀ e ∈ handled t, e.2 ≠ .shed

/-! ## Out of reach -/

theorem Step.stores (h : Step threshold renderer s l s') (hq : s.crowd.queue.Stores n ys) :
    ∃ zs, s'.crowd.queue.Stores n zs := by
  cases h with
  | @others e _ h =>
    obtain ⟨i, d⟩ := e
    obtain ⟨zs, hs, -⟩ := h.contents hq
    exact ⟨zs, hs⟩
  | cancel => exact ⟨ys, hq⟩
  | turn =>
    obtain ⟨zs, hs, -⟩ := Worker.turn_advance hq s.worker threshold
      (renderer s.worker.tally.total) s.cancelled
    exact ⟨zs, hs⟩

theorem Step.of_shed (h : Step threshold renderer s l s') (hl : l.handled? = some (f, .shed)) :
    threshold ≤ s.crowd.queue.count := by
  cases h with
  | others | cancel => cases hl
  | turn =>
    obtain ⟨g, hg, he⟩ := Option.map_eq_some_iff.mp hl
    exact Worker.settle_shed_iff.mp (Prod.mk.inj he).2

/-- The gap is never filled, so a threshold of as many frames as there are slots is out of reach. -/
theorem not_shed_of_run (hq : c.queue.Stores n xs) (hn : n ≤ threshold)
    (h : Run (Step threshold renderer) { crowd := c } t s) :
    (∃ ys, s.crowd.queue.Stores n ys) ∧ ∀ e ∈ handled t, e.2 ≠ .shed := by
  induction h with
  | start => exact ⟨⟨xs, hq⟩, nofun⟩
  | @next t b s l _ hs ih =>
    obtain ⟨⟨ys, hb⟩, hall⟩ := ih
    refine ⟨hs.stores hb, ?_⟩
    intro e he
    rw [handled_snoc, List.mem_append, Option.mem_toList] at he
    rcases he with he | he
    · exact hall e he
    · -- the last frame could only be shed with as many behind it as there are slots
      intro hshed
      obtain ⟨f, fate⟩ := e
      obtain rfl : fate = .shed := hshed
      have hle := hs.of_shed he
      have hlt := hb.length_lt
      rw [hb.count_eq] at hle
      omega

end Shift

/-! ## Filling the queue again -/

namespace Crowd

theorem enqueue_run (hq : q.Stores n xs) (hopen : q.closed = false) (hroom : xs.length + 1 < n)
    (policy : Policy) (f : Frame) : ∃ q', q'.Stores n (xs ++ [f]) ∧ q'.closed = false ∧
      Run Step ⟨q, [.free]⟩
        [(0, .asks (.enqueue policy f)), (0, .offered f .accepted), (0, .notifies)]
        ⟨q', [.free]⟩ := by
  rcases hq.offer_cases f with ⟨hc, -⟩ | ⟨-, hfull, -⟩ | ⟨-, -, q', ho, hopen', hs⟩
  · exact absurd (hopen.symm.trans hc) (by decide)
  · omega
  · refine ⟨q', hs, hopen', ?_⟩
    have hact : (Request.enqueue policy f).act q =
        ⟨.offered f .accepted, .notifying .item, q'⟩ := by
      cases policy <;> simp [Request.enqueue, Request.act, Request.settle, ho]
    have hwaits : q.offerWaits = false := by
      rw [Bool.eq_false_iff, Ne, hq.offerWaits_iff]
      omega
    have hsleeps : (Request.enqueue policy f).sleeps q = false := by
      cases policy with
      | drop => rfl
      | retry => exact hwaits
    have h : Run Step (⟨q, [.free]⟩ : Crowd Frame) [] ⟨q, [.free]⟩ := .start
    have h := h.next (.ask (i := 0) (.enqueue policy f) rfl)
    have h := h.next (.enter_of (i := 0) rfl hsleeps hact)
    exact h.next (.notifyNobody (i := 0) rfl rfl)

theorem fill_run (hq : q.Stores n xs) (hopen : q.closed = false) (policy : Policy) (f : Frame)
    (k : Nat) (hroom : xs.length + k < n) :
    ∃ q' t, q'.Stores n (xs ++ List.replicate k f) ∧ q'.closed = false ∧ Enqueues policy t ∧
      Run Step ⟨q, [.free]⟩ t ⟨q', [.free]⟩ := by
  induction k with
  | zero => exact ⟨q, [], by simpa using hq, hopen, nofun, .start⟩
  | succ k ih =>
    obtain ⟨r, t, hr, hropen, ht, hrun⟩ := ih (by omega)
    have hlen : (xs ++ List.replicate k f).length + 1 < n := by
      rw [List.length_append, List.length_replicate]
      omega
    obtain ⟨q', hs, hopen', hstep⟩ := enqueue_run hr hropen hlen policy f
    rw [List.append_assoc, ← List.replicate_succ'] at hs
    refine ⟨q', _, hs, hopen', ht.append ?_, hrun.append hstep⟩
    intro e he r hasks
    simp only [List.mem_cons, List.not_mem_nil, or_false] at he
    rcases he with rfl | rfl | rfl
    · exact ⟨f, .inr (Deed.asks.inj hasks).symm⟩
    · cases hasks
    · cases hasks

end Crowd

namespace Shift

/-- The worker comes to an open queue and takes the frame that is in it. -/
theorem fetch_run (hq : q.Stores n [f]) (hopen : q.closed = false) (threshold : Nat)
    (renderer : Nat → Verdict) (threads : List (Crowd.Phase Frame)) :
    ∃ q', q'.Stores n [] ∧ q'.closed = false ∧
      Run (Step threshold renderer) { crowd := ⟨q, threads⟩ } [.turn none, .turn none, .turn none]
        ⟨⟨q', threads⟩, ⟨.holding f, {}⟩, false⟩ := by
  rcases hq.take_cases with ⟨hnil, -⟩ | ⟨g, ys, q', hcons, ht, hc, hs⟩
  · cases hnil
  · cases hcons
    refine ⟨q', hs, hc.trans hopen, ?_⟩
    have hwaits : q.takeWaits = false := by
      rw [Bool.eq_false_iff, Ne, hq.takeWaits_iff]
      nofun
    have h : Run (Step threshold renderer) { crowd := ⟨q, threads⟩ } []
      { crowd := ⟨q, threads⟩ } := .start
    have h := ((h.next .turn).next .turn).next .turn
    simpa [work, handles, Worker.turn, Worker.handles, Worker.inHand, Worker.take, hopen, hwaits,
      ht] using h

/-- With all usable slots taken again, any threshold up to their number is reached. -/
theorem shed_run (hq : q.Stores n []) (hopen : q.closed = false) (hn : 2 ≤ n)
    (hle : threshold < n) (policy : Policy) (f : Frame) :
    ∃ t s, Run (Step threshold renderer) { crowd := ⟨q, [.free]⟩ } t s ∧
      Crowd.Enqueues policy (others t) ∧ (f, .shed) ∈ handled t := by
  obtain ⟨q₁, t₁, hq₁, hopen₁, ht₁, h₁⟩ := Crowd.fill_run hq hopen policy f 1 hn
  obtain ⟨q₂, hq₂, hopen₂, h₂⟩ := fetch_run hq₁ hopen₁ threshold renderer [.free]
  obtain ⟨q₃, t₃, hq₃, -, ht₃, h₃⟩ :=
    Crowd.fill_run hq₂ hopen₂ policy f (n - 1) (by rw [List.length_nil]; omega)
  have hcount : q₃.count = n - 1 := by
    rw [hq₃.count_eq, List.nil_append, List.length_replicate]
  have hshed : (Worker.settle threshold q₃.count (renderer 0) f).1 = .shed :=
    Worker.settle_shed_iff.mpr (by omega)
  have h := (others_run h₁ threshold renderer {} false).append h₂
  have h := (h.append (others_run h₃ threshold renderer ⟨.holding f, {}⟩ false)).next .turn
  -- all but one of the slots are taken again when the worker counts
  refine ⟨_, _, h, ?_, ?_⟩
  · rw [others_append, others_append, others_append, others_map, others_map]
    exact ((ht₁.append .nil).append ht₃).append .nil
  · rw [handled_snoc]
    have hfate : some (f, (Worker.settle threshold q₃.count (renderer 0) f).1) =
      some (f, .shed) := by rw [hshed]
    exact List.mem_append_right _ (Option.mem_toList.mpr hfate)

/-- A new queue is safe exactly if its threshold is at least the number of its slots. The warning
is also given for the threshold just below. -/
theorem safe_iff {st : Settings} {b : Built Frame} (hb : st.build Frame = .ok b)
    (renderer : Nat → Verdict) :
    (Safe b renderer ↔ b.capacity ≤ b.watch.threshold) ∧
      (b.warns ↔ b.capacity ≤ b.watch.threshold + 1) := by
  obtain ⟨hq, hopen⟩ := Settings.stores_of_build hb
  obtain ⟨hmin, -⟩ := Settings.capacity_of_build hb
  refine ⟨?_, Settings.warns_iff hb⟩
  constructor
  · intro hsafe
    rcases Nat.lt_or_ge b.watch.threshold b.capacity with hlt | hge
    · obtain ⟨t, s, h, ht, hmem⟩ := shed_run hq hopen hmin hlt b.policy .blank
      exact absurd rfl (hsafe 1 t s h ht _ hmem)
    · exact hge
  · intro hle m t s h _
    exact (not_shed_of_run (c := Crowd.start b.queue m) hq hle h).2

/-- With three slots and a threshold of three nothing is shed, and the warning says so. -/
theorem safe_of_three : ∃ b,
    ({ capacity := 3, threshold := .fixed 3 } : Settings).build Frame = .ok b ∧ b.warns ∧
    Safe b fun _ _ _ => .ok () := by
  have hb : ({ capacity := 3, threshold := .fixed 3 } : Settings).build Frame =
    .ok ⟨_, _, _, _, _⟩ := rfl
  obtain ⟨hsafe, hwarns⟩ := safe_iff hb fun _ _ _ => .ok ()
  exact ⟨_, hb, hwarns.mpr (by decide), hsafe.mpr (by decide)⟩

/-- With two slots and a threshold of one there is a warning, and yet a frame is shed: a producer
hands another one over after the worker has taken it out. -/
theorem warned_and_shed : ∃ b t s,
    ({ capacity := 2, threshold := .fixed 1 } : Settings).build Frame = .ok b ∧ b.warns ∧
    Run (Step b.watch.threshold fun _ _ _ => .ok ()) { crowd := Crowd.start b.queue 1 } t s ∧
    Crowd.Enqueues b.policy (others t) ∧ handled t = [(.numbered 1, .shed)] := by
  have hb : ({ capacity := 2, threshold := .fixed 1 } : Settings).build Frame =
    .ok ⟨_, _, _, _, _⟩ := rfl
  let f : Frame := .numbered 1
  let g : Frame := .numbered 2
  let s : Shift := { crowd := Crowd.start (Queue.empty 2) 1 }
  have h : Run (Step 1 fun _ _ _ => .ok ()) s [] s := .start
  have h := h.next (.others (.ask (i := 0) (.offer f) rfl))
  have h := (h.next (.others (.enter (i := 0) rfl rfl))).next
    (.others (.notifyNobody (i := 0) rfl rfl))
  let t : List Move := [.others (0, .asks (.offer f)), .others (0, .offered f .accepted),
    .others (0, .notifies)]
  have h : Run (Step 1 fun _ _ _ => .ok ()) s t
    { crowd := ⟨⟨⟨#[some f, none], 0, 1⟩, false⟩, [.free]⟩ } := h
  have h := ((h.next .turn).next .turn).next .turn
  let t : List Move := t ++ [.turn none, .turn none, .turn none]
  have h : Run (Step 1 fun _ _ _ => .ok ()) s t
    ⟨⟨⟨⟨#[none, none], 1, 1⟩, false⟩, [.free]⟩, ⟨.holding f, {}⟩, false⟩ := h
  -- the worker has not counted yet what is behind the frame that it holds
  have h := h.next (.others (.ask (i := 0) (.offer g) rfl))
  have hact : (Crowd.Request.offer g).act ⟨⟨#[none, none], 1, 1⟩, false⟩ =
    ⟨.offered g .accepted, .notifying .item, ⟨⟨#[none, some g], 1, 0⟩, false⟩⟩ := rfl
  have h := (h.next (.others (.enter_of (i := 0) rfl rfl hact))).next .turn
  let t : List Move := t ++ [.others (0, .asks (.offer g)), .others (0, .offered g .accepted),
    .turn (some (f, .shed))]
  have h : Run (Step 1 fun _ _ _ => .ok ()) s t
    ⟨⟨⟨⟨#[none, some g], 1, 0⟩, false⟩, [.notifying .item]⟩, ⟨.poised, { shed := 1 }⟩, false⟩ := h
  refine ⟨_, t, _, hb, ⟨_, List.mem_singleton_self _, rfl⟩, h, ?_, rfl⟩
  intro e he r hr
  have he : e ∈ [(0, .asks (.offer f)), (0, .offered f .accepted), (0, .notifies),
    (0, .asks (.offer g)), (0, .offered g .accepted)] := he
  simp only [List.mem_cons, List.not_mem_nil, or_false] at he
  rcases he with rfl | rfl | rfl | rfl | rfl
  · exact ⟨f, .inl (Crowd.Deed.asks.inj hr).symm⟩
  · cases hr
  · cases hr
  · exact ⟨g, .inl (Crowd.Deed.asks.inj hr).symm⟩
  · cases hr

end Shift

end SheddingQueue
