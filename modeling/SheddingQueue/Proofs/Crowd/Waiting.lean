import SheddingQueue.Proofs.Build
import SheddingQueue.Proofs.Crowd.Effect

/-!
# Nobody waits in vain

Who wakes the others has left the lock by then, and who is woken is not yet back in it. So there
are moments at which a thread waits although the queue has what it waits for. `Alert` says that at
every such moment enough others are on their way: each item in the queue, or each free slot, has
someone who is yet to wake one of those who wait, or someone who is already awake and will look.

The invariant is about one signal at a time, and counts the threads of four kinds. `Alert.move`
is the case of a thread that leaves the queue as it is.
-/

namespace SheddingQueue

namespace Crowd

variable {α : Type} {n i j : Nat} {xs ys : List α} {s s' : Crowd α} {c : Signal}
  {ph ph' : Phase α} {r : Request α} {p : Passage α} {q : Queue α}

/-- What a queue with `slots` slots has of it, while it stores `stored` items. -/
def Signal.supply (slots stored : Nat) : Signal → Nat
  | .item => stored
  | .room => slots - 1 - stored

/-- Whoever waits for a signal will be woken as soon as it is due. -/
structure Alert (slots : Nat) (c : Signal) (s : Crowd α) : Prop where
  /-- In a closed queue someone who has closed it is yet to wake all. -/
  closed : s.queue.closed = true → 0 < s.number (Phase.awaits c) →
    0 < s.number (Phase.owesAll c)
  /-- In an open queue there is no more to have than others are yet to see to. -/
  opened : s.queue.closed = false → 0 < s.number (Phase.awaits c) →
    c.supply slots s.queue.count ≤ s.number (Phase.owesOne c) + s.number (Phase.awaited c)

/-! ## Counting threads -/

/-- When one thread changes its phase, it is counted where it is, and no longer where it was. -/
theorem number_set (hi : s.threads[i]? = some ph) (hs : s'.threads = s.threads.set i ph')
    (f : Phase α → Bool) : s'.number f + (f ph).toNat = s.number f + (f ph').toNat := by
  obtain ⟨hlt, hget⟩ := List.getElem?_eq_some_iff.mp hi
  -- without this the subtraction in the count of a changed list could be cut off
  have hmem : (f ph).toNat ≤ s.threads.countP f := by
    by_cases hf : f ph = true
    · rw [hf]
      exact List.countP_pos_iff.mpr ⟨ph, List.mem_of_getElem? hi, hf⟩
    · simp [hf]
  rw [number, number, hs, List.countP_set hlt, hget]
  have hone (b : Bool) : (if b = true then 1 else 0) = b.toNat := by
    cases b <;> rfl
  rw [hone, hone]
  omega

theorem number_move (hi : s.threads[i]? = some ph) (ph' : Phase α) (f : Phase α → Bool) :
    (s.move i ph').number f + (f ph).toNat = s.number f + (f ph').toNat :=
  number_set hi rfl f

theorem number_pass (hi : s.threads[i]? = some ph) (p : Passage α) (f : Phase α → Bool) :
    (s.pass i p).number f + (f ph).toNat = s.number f + (f p.phase).toNat :=
  number_set hi rfl f

theorem number_rouseAll (c : Signal) (f : Phase α → Bool) :
    (s.rouseAll c).number f = s.number (f ∘ Phase.rouse c) := List.countP_map

theorem number_awaits_rouseAll (c : Signal) : (s.rouseAll c).number (Phase.awaits c) = 0 := by
  rw [number_rouseAll, number, List.countP_eq_zero]
  intro ph _
  cases ph with
  | parked r =>
    by_cases hr : r.awaits? = some c <;> simp [Phase.rouse, Phase.awaits, hr]
  | _ => simp [Phase.rouse, Phase.awaits]

/-- To wake those who wait for one signal changes nothing for the others, and for those who are
not waiting. -/
theorem number_rouseAll_of {f : Phase α → Bool}
    (hf : ∀ r : Request α, r.awaits? = some c → f (.roused r) = f (.parked r)) :
    (s.rouseAll c).number f = s.number f := by
  rw [number_rouseAll, number, number]
  congr 1
  funext ph
  cases ph with
  | parked r =>
    by_cases hr : r.awaits? = some c
    · simp [Phase.rouse, hr, hf r hr]
    · simp [Phase.rouse, hr]
  | _ => rfl

/-! ## One step -/

theorem Alert.of_number_eq_zero (h : s.number (Phase.awaits c) = 0) : s.Alert n c := by
  constructor
  · intro _ hw
    omega
  · intro _ hw
    omega

/-- With the queue as it is, nobody more may wait and no duty may be lost. -/
theorem Alert.of_number_le (ha : s.Alert n c) (hqueue : s'.queue = s.queue)
    (hA : s'.number (Phase.awaits c) ≤ s.number (Phase.awaits c))
    (hH : s.number (Phase.owesAll c) ≤ s'.number (Phase.owesAll c))
    (hOB : s.number (Phase.owesOne c) + s.number (Phase.awaited c) ≤
      s'.number (Phase.owesOne c) + s'.number (Phase.awaited c)) : s'.Alert n c := by
  constructor
  · intro hc hw
    rw [hqueue] at hc
    exact Nat.lt_of_lt_of_le (ha.closed hc (Nat.lt_of_lt_of_le hw hA)) hH
  · intro hc hw
    rw [hqueue] at hc ⊢
    exact Nat.le_trans (ha.opened hc (Nat.lt_of_lt_of_le hw hA)) hOB

/-- A thread that leaves the queue as it is. -/
theorem Alert.move (ha : s.Alert n c) (hi : s.threads[i]? = some ph) (ph' : Phase α)
    (hwaits : (ph'.awaits c).toNat ≤ (ph.awaits c).toNat)
    (hall : (ph.owesAll c).toNat ≤ (ph'.owesAll c).toNat)
    (hone : (ph.owesOne c).toNat + (ph.awaited c).toNat ≤
      (ph'.owesOne c).toNat + (ph'.awaited c).toNat) : (s.move i ph').Alert n c := by
  have hA := number_move hi ph' (Phase.awaits c)
  have hH := number_move hi ph' (Phase.owesAll c)
  have hO := number_move hi ph' (Phase.owesOne c)
  have hB := number_move hi ph' (Phase.awaited c)
  refine ha.of_number_le rfl ?_ ?_ ?_ <;> omega

/-- Someone begins to wait only if there is nothing to have. -/
theorem lacking_iff (hq : q.Stores n xs) :
    c.lacking q = true ↔ c.supply n xs.length = 0 ∧ q.closed = false := by
  have hlt := hq.length_lt
  cases c with
  | item => simp [Signal.lacking, hq.takeWaits_iff, Signal.supply]
  | room =>
    rw [Signal.lacking, hq.offerWaits_iff, Signal.supply]
    constructor
    · rintro ⟨hfull, hopen⟩
      exact ⟨by omega, hopen⟩
    · rintro ⟨hnone, hopen⟩
      exact ⟨by omega, hopen⟩

/-- A passage of the lock that leaves the queue open adds to what there is to have only if it will
wake someone for it. -/
theorem Effect.supply_le (he : Effect n q xs r p ys) (c : Signal) :
    c.supply n ys.length ≤ c.supply n xs.length + (p.phase.owesOne c).toNat := by
  cases he with
  | stored | taken hr hxs =>
    cases c <;> simp_all [Signal.supply, Phase.owesOne] <;> omega
  | _ => simp

theorem awaits_room_of_item {x : α} (hx : r.item? = some x) (hr : r.awaits? = some c) :
    c = .room := by
  cases r <;> simp_all [Request.item?, Request.awaits?]

theorem awaits_item_of_takes (ht : r.takes = true) (hr : r.awaits? = some c) : c = .item := by
  cases r <;> simp_all [Request.takes, Request.awaits?]

/-- A passage of one who has waited takes of it what there is, if the queue stays open. -/
theorem Effect.supply_lt (he : Effect n q xs r p ys) (hr : r.awaits? = some c)
    (hopen : p.queue.closed = false) : c.supply n ys.length ≤ c.supply n xs.length - 1 := by
  cases he with
  | stored hx =>
    obtain rfl := awaits_room_of_item hx hr
    simp only [Signal.supply, List.length_append, List.length_singleton]
    omega
  | full hx _ hfull =>
    obtain rfl := awaits_room_of_item hx hr
    simp only [Signal.supply]
    omega
  | again hp _ hfull =>
    obtain rfl := awaits_room_of_item (congrArg Request.item? hp) hr
    simp only [Signal.supply]
    omega
  | taken ht hxs =>
    obtain rfl := awaits_item_of_takes ht hr
    simp [Signal.supply, hxs]
  | nothing ht hxs =>
    obtain rfl := awaits_item_of_takes ht hr
    simp [Signal.supply, hxs]
  | rejected _ hc => simp [hc] at hopen
  | closed => cases hopen

theorem Effect.owesAll (he : Effect n q xs r p ys) (hopen : q.closed = false)
    (hclosed : p.queue.closed = true) (c : Signal) : p.phase.owesAll c = true := by
  cases he with
  | closed => rfl
  | stored _ _ _ h => simp [h] at hclosed
  | taken _ _ h => simp [h, hopen] at hclosed
  | rejected _ h => simp [h] at hopen
  | full | again | nothing => simp [hopen] at hclosed

theorem Effect.phase (he : Effect n q xs r p ys) (c : Signal) :
    p.phase.awaits c = false ∧ p.phase.awaited c = false := by
  cases he <;> exact ⟨rfl, rfl⟩

/-- A passage of the lock, by one who has just come or who has waited. -/
theorem Alert.pass (ha : s.Alert n c) (hq : s.queue.Stores n xs) (hi : s.threads[i]? = some ph)
    (hph : ph = .entering r ∨ ph = .roused r) : (s.pass i (r.act s.queue)).Alert n c := by
  obtain ⟨ys, he, hs⟩ := act_effect hq r
  obtain ⟨hwaits, hawaited⟩ := he.phase c
  have old : ph.awaits c = false ∧ ph.owesAll c = false ∧ ph.owesOne c = false := by
    rcases hph with rfl | rfl <;> exact ⟨rfl, rfl, rfl⟩
  obtain ⟨hwaits', hall', hone'⟩ := old
  have hA := number_pass hi (r.act s.queue) (Phase.awaits c)
  have hH := number_pass hi (r.act s.queue) (Phase.owesAll c)
  have hO := number_pass hi (r.act s.queue) (Phase.owesOne c)
  have hB := number_pass hi (r.act s.queue) (Phase.awaited c)
  simp only [hwaits, hwaits', hall', hone', hawaited, Bool.toNat_false] at hA hH hO hB
  constructor
  · intro hc hw
    by_cases hopen : s.queue.closed = true
    · have := ha.closed hopen (by omega)
      omega
    · -- the thread has closed the queue just now
      have := he.owesAll (by simpa using hopen) hc c
      simp only [this, Bool.toNat_true] at hH
      omega
  · intro hc hw
    have hopen : s.queue.closed = false := by
      cases h : s.queue.closed with
      | false => rfl
      | true => exact (he.of_closed h).1.symm.trans hc
    have hle := ha.opened hopen (by omega)
    rw [hq.count_eq] at hle
    show c.supply n (r.act s.queue).queue.count ≤ _
    rw [hs.count_eq]
    have hadd := he.supply_le c
    -- only one who has waited for the signal was counted as awake
    by_cases hr : ph.awaited c = true
    · have hwaited : r.awaits? = some c := by
        rcases hph with rfl | rfl
        · cases hr
        · simpa [Phase.awaited] using hr
      have hlt := he.supply_lt hwaited hc
      simp only [hr, Bool.toNat_true] at hB
      omega
    · simp only [hr, Bool.toNat_false] at hB
      omega

/-- One who begins to wait finds nothing to have, so nobody need be on their way. -/
theorem Alert.park (ha : s.Alert n c) (hq : s.queue.Stores n xs)
    (hi : s.threads[i]? = some (.entering r)) (hs : r.sleeps s.queue = true) :
    (s.move i (.parked r)).Alert n c := by
  by_cases hr : r.awaits? = some c
  · rw [Request.sleeps, hr] at hs
    obtain ⟨hnone, hopen⟩ := (lacking_iff hq).mp hs
    constructor
    · intro hc
      exact absurd (hopen.symm.trans hc) (by decide)
    · intro _ _
      show c.supply n s.queue.count ≤ _
      rw [hq.count_eq, hnone]
      exact Nat.zero_le _
  · refine ha.move hi _ ?_ (Nat.le_refl _) (Nat.le_refl _)
    simp [Phase.awaits, hr]

/-- One who has been woken makes up for the one who has woken it. -/
theorem Alert.notify {d : Signal} (ha : s.Alert n c) (hi : s.threads[i]? = some (.notifying d))
    (hj : s.threads[j]? = some (.parked r)) (hr : r.awaits? = some d) :
    ((s.move i .free).move j (.roused r)).Alert n c := by
  have hj' := parked_of_move hi hj .free
  have hA := number_move hi .free (Phase.awaits c)
  have hH := number_move hi .free (Phase.owesAll c)
  have hO := number_move hi .free (Phase.owesOne c)
  have hB := number_move hi .free (Phase.awaited c)
  have hA' := number_move hj' (.roused r) (Phase.awaits c)
  have hH' := number_move hj' (.roused r) (Phase.owesAll c)
  have hO' := number_move hj' (.roused r) (Phase.owesOne c)
  have hB' := number_move hj' (.roused r) (Phase.awaited c)
  simp only [Phase.awaits, Phase.owesAll, Phase.owesOne, Phase.awaited, hr, Bool.toNat_false,
    Option.some_beq_some] at hA hH hO hB hA' hH' hO' hB'
  refine ha.of_number_le rfl ?_ ?_ ?_ <;> omega

theorem Alert.notifyNobody {d : Signal} (ha : s.Alert n c)
    (hi : s.threads[i]? = some (.notifying d)) (hn : s.number (Phase.awaits d) = 0) :
    (s.move i .free).Alert n c := by
  by_cases hd : d = c
  · subst hd
    have hA := number_move hi .free (Phase.awaits d)
    simp only [Phase.awaits, Bool.toNat_false, hn] at hA
    exact .of_number_eq_zero hA
  · refine ha.move hi _ (Nat.le_refl _) (Nat.le_refl _) ?_
    simp [Phase.owesOne, Phase.awaited, hd]

theorem Alert.hail {d : Signal} (ha : s.Alert n c) (hi : s.threads[i]? = some (.hailing d)) :
    ((s.rouseAll d).move i (Phase.afterHail d)).Alert n c := by
  have hi' : (s.rouseAll d).threads[i]? = some (.hailing d) := by
    rw [rouseAll, List.getElem?_map, hi]
    rfl
  have hawaits : (Phase.afterHail d : Phase α).awaits c = false := by
    cases d <;> rfl
  by_cases hd : d = c
  · -- nobody is left who waits for this signal
    subst hd
    have hA := number_move hi' (Phase.afterHail d) (Phase.awaits d)
    rw [number_awaits_rouseAll, hawaits] at hA
    simp only [Phase.awaits, Bool.toNat_false] at hA
    exact .of_number_eq_zero hA
  · -- nobody who waits for the other signal is woken, and nobody is counted as awake for it
    have hA : (s.rouseAll d).number (Phase.awaits c) = s.number (Phase.awaits c) :=
      number_rouseAll_of fun r hr => by simp [Phase.awaits, hr, hd]
    have hB : (s.rouseAll d).number (Phase.awaited c) = s.number (Phase.awaited c) :=
      number_rouseAll_of fun r hr => by simp [Phase.awaited, hr, hd]
    have hO : (s.rouseAll d).number (Phase.owesOne c) = s.number (Phase.owesOne c) :=
      number_rouseAll_of fun r _ => rfl
    have hH : (s.rouseAll d).number (Phase.owesAll c) = s.number (Phase.owesAll c) :=
      number_rouseAll_of fun r _ => rfl
    have ha' : (s.rouseAll d).Alert n c := by
      refine ha.of_number_le rfl ?_ ?_ ?_
      · exact Nat.le_of_eq hA
      · exact Nat.le_of_eq hH.symm
      · exact Nat.le_of_eq (by rw [hO, hB])
    apply ha'.move hi' <;> cases d <;> cases c <;>
      simp_all [Phase.afterHail, Phase.awaits, Phase.awaited, Phase.owesAll, Phase.owesOne]

theorem Step.alert {l : Nat × Deed α} (h : Step s l s') (hq : s.queue.Stores n xs)
    (ha : s.Alert n c) : s'.Alert n c := by
  cases h with
  | ask r hi => exact ha.move hi _ (Nat.le_refl _) (Nat.le_refl _) (Nat.le_refl _)
  | park hi hs => exact ha.park hq hi hs
  | enter hi => exact ha.pass hq hi (.inl rfl)
  | leave hi => exact ha.move hi _ (Nat.zero_le _) (Nat.le_refl _) (Nat.zero_le _)
  | reenter hi => exact ha.pass hq hi (.inr rfl)
  | notify hi hj hr => exact ha.notify hi hj hr
  | notifyNobody hi hn => exact ha.notifyNobody hi hn
  | hail hi => exact ha.hail hi

/-! ## Every run -/

/-- Whatever any number of threads do at a new queue, nobody waits in vain. -/
theorem alert_of_run {st : Settings} {b : Built α} (hb : st.build α = .ok b) {m : Nat}
    {t : List (Nat × Deed α)} (h : Run Step (start b.queue m) t s) (c : Signal) :
    s.Alert b.capacity c := by
  obtain ⟨hq, -⟩ := Settings.stores_of_build hb
  induction h with
  | start =>
    apply Alert.of_number_eq_zero
    rw [number, start, List.countP_eq_zero]
    intro ph hph
    rw [List.eq_of_mem_replicate hph]
    nofun
  | next hr hs ih =>
    obtain ⟨ys, hys, -⟩ := contents_of_run hr hq
    exact hs.alert hys ih

/-- Three runs at a queue with a single usable slot that end while somebody waits for what has come
already. In the first an item has been stored, and in the second the slot has been freed, and the one
thread that waits for that has not been woken yet. In the third the queue has been closed, and of two
threads that wait, one for an item and one for room, neither has been woken yet. -/
theorem alert_of_stored_unseen :
    (∃ t s, Run Step (start (Queue.empty 2 : Queue Nat) 2) t s ∧ s.queue.closed = false ∧
      s.number (Phase.awaits .item) = 1 ∧ s.queue.count = 1 ∧ ∀ c, s.Alert 2 c) ∧
    (∃ t s, Run Step (start (Queue.empty 2 : Queue Nat) 2) t s ∧ s.queue.closed = false ∧
      s.number (Phase.awaits .room) = 1 ∧ s.queue.count = 0 ∧ ∀ c, s.Alert 2 c) ∧
    (∃ t s, Run Step (start (Queue.empty 2 : Queue Nat) 4) t s ∧ s.queue.closed = true ∧
      (∀ c, s.number (Phase.awaits c) = 1) ∧ ∀ c, s.Alert 2 c) := by
  have hb : ({ capacity := 2 } : Settings).build Nat = .ok ⟨_, _, _, _, _⟩ := rfl
  have hstart (m : Nat) : Run Step (start (Queue.empty 2 : Queue Nat) m) [] (start (.empty 2) m) :=
    .start
  refine ⟨?_, ?_, ?_⟩
  · have h := ((hstart 2).next (.ask (i := 0) .takeWithin rfl)).next (.park (i := 0) rfl rfl)
    have h := (h.next (.ask (i := 1) (.offer 7) rfl)).next (.enter (i := 1) rfl rfl)
    exact ⟨_, _, h, rfl, rfl, rfl, alert_of_run hb h⟩
  · have h := ((hstart 2).next (.ask (i := 0) (.offer 7) rfl)).next (.enter (i := 0) rfl rfl)
    have h := h.next (.notifyNobody (i := 0) rfl rfl)
    have h := (h.next (.ask (i := 0) (.persist 8) rfl)).next (.park (i := 0) rfl rfl)
    have h := (h.next (.ask (i := 1) .take rfl)).next (.enter (i := 1) rfl rfl)
    exact ⟨_, _, h, rfl, rfl, rfl, alert_of_run hb h⟩
  · have h := ((hstart 4).next (.ask (i := 0) .takeWithin rfl)).next (.park (i := 0) rfl rfl)
    -- the item is stored, and the slot taken, before the one who waits for it has been woken
    have h := (h.next (.ask (i := 1) (.offer 7) rfl)).next (.enter (i := 1) rfl rfl)
    have h := (h.next (.ask (i := 2) (.offerWithin 8) rfl)).next (.park (i := 2) rfl rfl)
    have h := (h.next (.ask (i := 3) .close rfl)).next (.enter (i := 3) rfl rfl)
    exact ⟨_, _, h, rfl, fun c => by cases c <;> rfl, alert_of_run hb h⟩

/-- When nobody is on their way, those who wait have nothing to wake up for. -/
theorem Alert.at_rest (ha : s.Alert n c)
    (hrest : ∀ ph ∈ s.threads, ph = .free ∨ ∃ r, ph = .parked r)
    (hw : 0 < s.number (Phase.awaits c)) :
    s.queue.closed = false ∧ c.supply n s.queue.count = 0 := by
  have idle {f : Phase α → Bool} (hfree : f .free = false) (hparked : ∀ r, f (.parked r) = false) :
      s.number f = 0 := by
    rw [number, List.countP_eq_zero]
    intro ph hph
    rcases hrest ph hph with rfl | ⟨r, rfl⟩ <;> simp [hfree, hparked]
  have hH : s.number (Phase.owesAll c) = 0 := idle rfl fun _ => rfl
  have hO : s.number (Phase.owesOne c) = 0 := idle rfl fun _ => rfl
  have hB : s.number (Phase.awaited c) = 0 := idle rfl fun _ => rfl
  cases hc : s.queue.closed with
  | true =>
    have := ha.closed hc hw
    omega
  | false =>
    have := ha.opened hc hw
    exact ⟨rfl, by omega⟩

end Crowd

end SheddingQueue
