import SheddingQueue.Proofs.Build
import SheddingQueue.Proofs.Crowd.Effect
import SheddingQueue.Proofs.Producer.Attempts

/-!
# A call that persists

One thread of a crowd hands a frame over and makes attempts until it is settled, while the other
threads do whatever they like. `Tried` lists the queues that its attempts have found without room.
With these `Producer.enqueue` comes to the same as the call does among the others, so that all that
is known of its attempts holds of the call: `all_or_nothing`.
-/

namespace SheddingQueue

namespace Crowd

variable {α : Type} {n i j : Nat} {xs : List α} {s s' : Crowd α} {d : Deed α} {ph : Phase α}
  {r : Request α} {t : List (Nat × Deed α)} {qs : List (Queue α)} {x : α}

/-! ## A thread in a call -/

/-- The call that a thread has made and that is not settled. -/
def Phase.call? : Phase α → Option (Request α)
  | .entering r | .parked r | .roused r => some r
  | .free | .notifying _ | .hailing _ => none

/-- The thread with number `i` is in the middle of a call. -/
def Calls (s : Crowd α) (i : Nat) (r : Request α) : Prop :=
  (s.threads[i]?).bind Phase.call? = some r

theorem calls_of (h : s.threads[i]? = some ph) (hr : ph.call? = some r) : s.Calls i r := by
  rw [Calls, h, Option.bind_some, hr]

theorem Calls.phase (h : s.Calls i r) (hi : s.threads[i]? = some ph) : ph.call? = some r := by
  rwa [Calls, hi, Option.bind_some] at h

theorem threads_set_self (h : s.threads[i]? = some ph) (ph' : Phase α) :
    (s.threads.set i ph')[i]? = some ph' :=
  List.getElem?_set_self (List.getElem?_eq_some_iff.mp h).1

theorem call?_rouse (c : Signal) (ph : Phase α) : (ph.rouse c).call? = ph.call? := by
  cases ph with
  | parked r =>
    rw [Phase.rouse]
    split <;> rfl
  | _ => rfl

/-- A call goes on whatever another thread does, even if the thread is woken by it. -/
theorem Step.calls_ne (h : Step s (i, d) s') (hij : i ≠ j) (hj : s.Calls j r) : s'.Calls j r := by
  have apart {ts : List (Phase α)} (ph : Phase α) : (ts.set i ph)[j]? = ts[j]? :=
    List.getElem?_set_ne hij
  cases h with
  | ask | park | enter | leave | reenter | notifyNobody =>
    show (((s.threads.set i _)[j]?).bind Phase.call? = some r)
    rwa [apart]
  | @notify _ k _ p h hk hp =>
    by_cases hkj : k = j
    · subst hkj
      have hp : (Phase.parked p).call? = some r := hj.phase hk
      exact calls_of (threads_set_self (parked_of_move h hk .free) _) hp
    · show ((((s.threads.set i _).set k _)[j]?).bind Phase.call? = some r)
      rwa [List.getElem?_set_ne hkj, apart]
  | @hail _ c h =>
    show ((((s.threads.map (Phase.rouse c)).set i _)[j]?).bind Phase.call? = some r)
    rw [apart, List.getElem?_map, Option.bind_map]
    have hsame : Phase.call? ∘ Phase.rouse c = (Phase.call? : Phase α → _) :=
      funext (call?_rouse c)
    rwa [hsame]

/-! ## A thread that persists -/

/-- What comes of an attempt: it finds no room, and the call goes on, or it settles the call. -/
theorem act_persist (q : Queue α) (x : α) :
    (q.offer x = (.refused .full x, q) ∧
      (Request.persist x).act q = ⟨.retried x, .entering (.persist x), q⟩) ∨
    (∃ answer, q.offer x = (answer, ((Request.persist x).act q).queue) ∧
      (∀ y, answer ≠ .refused .full y) ∧ ((Request.persist x).act q).deed = .offered x answer) := by
  rw [Request.act]
  rcases ho : q.offer x with ⟨_ | ⟨_ | _, y⟩, q'⟩
  · refine .inr ⟨.accepted, rfl, ?_, rfl⟩
    intro y hy
    cases hy
  · obtain ⟨rfl, rfl⟩ := Queue.eq_of_offer_refused ho
    exact .inl ⟨rfl, rfl⟩
  · refine .inr ⟨.refused .closed y, rfl, ?_, rfl⟩
    intro z hz
    cases hz

/-- A thread that has waited passes through the lock, and it is known what comes of it. -/
theorem Step.reenter_of {p : Passage α} (h : s.threads[i]? = some (.roused r))
    (hp : r.act s.queue = p) : Step s (i, p.deed) (s.pass i p) :=
  hp ▸ .reenter h

/-- A step of the thread itself: the call goes on, and if it was an attempt, this has found no room
and left the queue as it is; or the step settles the call. -/
theorem Step.of_calls (h : Step s (i, d) s') (hi : s.Calls i (.persist x)) :
    (d.reply? = none ∧ s'.Calls i (.persist x) ∧
      ∀ y, d = .retried y → s.queue.offer x = (.refused .full x, s.queue)) ∨
    (∃ answer, d = .offered x answer ∧ s.queue.offer x = (answer, s'.queue) ∧
      ∀ y, answer ≠ .refused .full y) := by
  have inLock {ph : Phase α} {r : Request α} (h : s.threads[i]? = some ph)
      (hr : ph.call? = some r) : let p := r.act s.queue
      (p.deed.reply? = none ∧ (s.pass i p).Calls i (.persist x) ∧
        ∀ y, p.deed = .retried y → s.queue.offer x = (.refused .full x, s.queue)) ∨
      (∃ answer, p.deed = .offered x answer ∧ s.queue.offer x = (answer, p.queue) ∧
        ∀ y, answer ≠ .refused .full y) := by
    obtain rfl : r = .persist x := Option.some.inj (hr.symm.trans (hi.phase h))
    rcases act_persist s.queue x with ⟨ho, hact⟩ | ⟨answer, ho, hsettled, hdeed⟩
    · rw [hact]
      exact .inl ⟨rfl, calls_of (threads_set_self h _) rfl, fun _ _ => ho⟩
    · exact .inr ⟨answer, hdeed, ho, hsettled⟩
  cases h with
  | enter h => exact inLock h rfl
  | reenter h => exact inLock h rfl
  | @park _ r h =>
    obtain rfl : r = .persist x := Option.some.inj (hi.phase h)
    exact .inl ⟨rfl, calls_of (threads_set_self h _) rfl, nofun⟩
  | @leave _ r h =>
    obtain rfl : r = .persist x := Option.some.inj (hi.phase h)
    exact .inl ⟨rfl, calls_of (threads_set_self h _) rfl, nofun⟩
  | ask _ h => cases hi.phase h
  | notify h => cases hi.phase h
  | notifyNobody h => cases hi.phase h
  | hail h => cases hi.phase h

/-- The queues that a thread found when it tried again, in the order of its attempts. -/
inductive Tried (i : Nat) (s : Crowd α) :
    List (Nat × Deed α) → Crowd α → List (Queue α) → Prop where
  | start : Tried i s [] s []
  | pass {t : List (Nat × Deed α)} {b c : Crowd α} {l : Nat × Deed α} {qs : List (Queue α)} :
      Tried i s t b qs → Step b l c → (∀ x, l ≠ (i, .retried x)) → Tried i s (t ++ [l]) c qs
  | again {t : List (Nat × Deed α)} {b c : Crowd α} {x : α} {qs : List (Queue α)} :
      Tried i s t b qs → Step b (i, .retried x) c →
      Tried i s (t ++ [(i, .retried x)]) c (qs ++ [b.queue])

/-- Nothing but attempts without room comes before the answer to a call. -/
theorem tried_of_run (h : Run Step s t s') (hi : s.Calls i (.persist x))
    (hopen : ∀ e ∈ t, e.1 = i → e.2.reply? = none) :
    s'.Calls i (.persist x) ∧ ∃ qs, Tried i s t s' qs ∧
      ∀ q ∈ qs, q.offer x = (.refused .full x, q) := by
  induction h with
  | start => exact ⟨hi, [], .start, List.forall_mem_nil _⟩
  | @next t b c l _ hs ih =>
    obtain ⟨k, d⟩ := l
    obtain ⟨hb, qs, htried, hfull⟩ := ih fun e he => hopen e (List.mem_append_left _ he)
    by_cases hk : k = i
    · subst hk
      have hreply : d.reply? = none := hopen (k, d) (by simp) rfl
      rcases hs.of_calls hb with ⟨-, hc, hretried⟩ | ⟨answer, rfl, -⟩
      · refine ⟨hc, ?_⟩
        by_cases hd : ∃ y, d = .retried y
        · obtain ⟨y, rfl⟩ := hd
          refine ⟨qs ++ [b.queue], htried.again hs, ?_⟩
          intro q hq
          rcases List.mem_append.mp hq with hq | hq
          · exact hfull q hq
          · cases List.mem_singleton.mp hq
            exact hretried y rfl
        · refine ⟨qs, htried.pass hs ?_, hfull⟩
          rintro y ⟨⟩
          exact hd ⟨y, rfl⟩
      · cases hreply
    · refine ⟨hs.calls_ne hk hb, qs, htried.pass hs ?_, hfull⟩
      rintro y ⟨⟩
      exact hk rfl

/-! ## The whole call -/

/-- What came of a call for the frame `f` that thread `i` made at a queue with `slots` slots: it ran
from `s₀` by the steps `u` to `s₁`, and was answered in the step from there to `s₂`. The queues
`earlier` are those of its attempts in vain. -/
structure Served (slots i : Nat) (f : Frame) (s₀ : Crowd Frame) (u : List (Nat × Deed Frame))
    (s₁ s₂ : Crowd Frame) (answer : Admission Frame) (earlier : List (Queue Frame))
    (r : Producer.Result) : Prop where
  answer_eq : r.answer = answer
  queue_eq : r.queue = s₂.queue
  settles : Producer.Settles f earlier s₁.queue r
  /-- The last attempt puts the frame behind the others if it is accepted. -/
  contents : s₂.queue.toList = s₁.queue.toList ++ (admitted? (f, answer)).toList
  /-- The thread has stored the frame once if it is accepted, and nothing otherwise. -/
  stored : share i (pushes (u ++ [(i, .offered f answer)])) = (admitted? (f, answer)).toList
  /-- An attempt in vain finds all slots but the gap taken, and changes nothing. -/
  retried : ∀ v b x c, Run Step s₀ v b → Step b (i, .retried x) c →
    c.queue = b.queue ∧ b.queue.count = slots - 1 ∧ b.queue.closed = false

theorem Step.of_retried (h : Step s (i, .retried x) s') (hq : s.queue.Stores n xs) :
    s'.queue = s.queue ∧ s.queue.count = n - 1 ∧ s.queue.closed = false := by
  obtain ⟨hfull, hopen⟩ := h.of_findsFull hq rfl
  refine ⟨?_, by rw [hq.count_eq]; omega, hopen⟩
  rcases h.effect hq with ⟨hquiet, -⟩ | ⟨r, p, ys, he, hp, hs, -⟩
  · cases hquiet
  · cases he with
    | again => exact hs.symm
    | _ => cases hp

/-- A call begins outside the lock. -/
theorem Step.of_asks (h : Step s (i, .asks r) s') (hq : s.queue.Stores n xs) :
    s'.Calls i r ∧ s'.queue = s.queue := by
  have never (r' : Request α) : Deed.asks r ≠ (r'.act s.queue).deed := by
    obtain ⟨ys, he, -⟩ := act_effect hq r'
    generalize r'.act s.queue = p at he
    cases he <;> exact nofun
  generalize hd : Deed.asks r = d at h
  cases h with
  | ask _ h =>
    cases hd
    exact ⟨calls_of (threads_set_self h _) rfl, rfl⟩
  | enter => exact absurd hd (never _)
  | reenter => exact absurd hd (never _)
  | park | leave | notify | notifyNobody | hail => cases hd

/-- What a call has stored is known from its answer. -/
theorem share_pushes_of_open (hopen : ∀ e ∈ t, e.1 = i → e.2.reply? = none) (x : α)
    (answer : Admission α) :
    share i (pushes (t ++ [(i, .offered x answer)])) = (admitted? (x, answer)).toList := by
  have hnone : replies i t = [] := by
    rw [replies, share, List.filterMap_filterMap, List.filterMap_eq_nil_iff]
    intro e he
    by_cases hi : e.1 = i
    · simp [hi, hopen e he hi]
    · simp [hi]
  rw [share_pushes, replies_snoc, hnone, if_pos rfl]
  cases h : admitted? (x, answer) <;> simp [Deed.reply?, h]

/-- A producer that retries until there is room never gives a frame up. If its call returns, the
frame has been stored once, by the last attempt, or the queue was closed at the last attempt and the
frame comes back. All earlier attempts find no room, change nothing and are reported one by one.
This is so for whatever the others do around the attempts, and a call among any other threads is of
this kind. -/
theorem all_or_nothing (interval : Duration) (f : Frame) :
    (∀ others q r, Producer.enqueue (.retry interval) others q f = some r →
      ∃ earlier last, Producer.visits f others q = earlier ++ [last] ∧
        Producer.Settles f earlier last r) ∧
    (∀ (st : Settings) (b : Built Frame), st.build Frame = .ok b → b.policy = .retry interval →
      ∀ m t s i s₀, Run Step (start b.queue m) t s →
        Step s (i, .asks (.enqueue b.policy f)) s₀ →
        ∀ u s₁ x answer s₂, Run Step s₀ u s₁ → (∀ e ∈ u, e.1 = i → e.2.reply? = none) →
          Step s₁ (i, .offered x answer) s₂ →
          x = f ∧ ∃ earlier others r, Tried i s₀ u s₁ earlier ∧
            Producer.enqueue b.policy others s₀.queue f = some r ∧
            Producer.visits f others s₀.queue = earlier ++ [s₁.queue] ∧
            Served b.capacity i f s₀ u s₁ s₂ answer earlier r) := by
  constructor
  · intro others q r h
    exact Producer.retry_settles h
  · intro st b hb hpolicy m t s i s₀ hrun hask u s₁ x answer s₂ hu hopen hreply
    obtain ⟨hstart, -⟩ := Settings.stores_of_build hb
    obtain ⟨xs, hs, -⟩ := contents_of_run (s := start b.queue m) hrun hstart
    rw [hpolicy] at hask ⊢
    obtain ⟨hcalls, hqueue⟩ := hask.of_asks hs
    have hs₀ : s₀.queue.Stores b.capacity xs := hqueue ▸ hs
    obtain ⟨ys, hs₁, -⟩ := contents_of_run hu hs₀
    obtain ⟨hcalls₁, earlier, htried, hfull⟩ := tried_of_run hu hcalls hopen
    rcases hreply.of_calls hcalls₁ with ⟨hnone, -⟩ | ⟨answer', hdeed, hoffer, hsettled⟩
    · cases hnone
    · cases hdeed
      obtain ⟨others, hretry, hvisits⟩ := Producer.retry_leadTo hfull hoffer hsettled s₀.queue
      obtain ⟨zs, hs₂, hzs⟩ := hreply.contents hs₁
      have hstored := share_pushes_of_open hopen f answer
      refine ⟨rfl, earlier, others, _, htried, hretry, hvisits, rfl, rfl,
        Producer.settles_of_offer hfull hoffer hsettled, ?_, hstored, ?_⟩
      · rw [hs₁.toList_eq, hs₂.toList_eq]
        rw [stored?_eq] at hzs
        exact hzs.symm
      · intro v b' y c hv hretried
        obtain ⟨_, hb', -⟩ := contents_of_run hv hs₀
        exact hretried.of_retried hb'

/-- The only usable slot is taken when a second thread begins its call. It waits once in vain, and
while it waits again the first thread takes its item out. The same call alone, with the take in the
middle of its second attempt, returns too. -/
theorem all_or_nothing_for_patient : ∃ b,
    ({ capacity := 2, policy := .patient } : Settings).build Frame = .ok b ∧
    b.policy = .retry defaultRetryInterval ∧
    (let q := (b.queue.offer (.numbered 1)).2
      let others : List Producer.Others := [{}, { during := fun q => q.take.2 }]
      ∃ r, Producer.enqueue b.policy others q (.numbered 2) = some r ∧
        ∃ earlier last, Producer.Settles (.numbered 2) earlier last r) ∧
    ∃ t s s₀ u s₁ s₂, Run Step (start b.queue 2) t s ∧
      Step s (1, .asks (.enqueue b.policy (.numbered 2))) s₀ ∧ Run Step s₀ u s₁ ∧
      (1, .retried (.numbered 2)) ∈ u ∧ Step s₁ (1, .offered (.numbered 2) .accepted) s₂ ∧
      ∃ earlier others r, Producer.enqueue b.policy others s₀.queue (.numbered 2) = some r ∧
        Served b.capacity 1 (.numbered 2) s₀ u s₁ s₂ .accepted earlier r := by
  have hb : ({ capacity := 2, policy := .patient } : Settings).build Frame =
    .ok ⟨_, _, _, _, _⟩ := rfl
  obtain ⟨halone, hcrowd⟩ := all_or_nothing defaultRetryInterval (.numbered 2)
  refine ⟨_, hb, rfl, ?_, ?_⟩
  · intro q others
    have hreturns : (Producer.enqueue .patient others q (.numbered 2)).isSome = true := by
      decide +kernel
    obtain ⟨r, hr⟩ := Option.isSome_iff_exists.mp hreturns
    obtain ⟨earlier, last, -, hsettles⟩ := halone others q r hr
    exact ⟨r, hr, earlier, last, hsettles⟩
  · let two := Frame.numbered 2
    let full : Queue Frame := ⟨⟨#[some (.numbered 1), none], 0, 1⟩, false⟩
    let s : Crowd Frame := ⟨full, [.free, .free]⟩
    let s₀ : Crowd Frame := ⟨full, [.free, .entering (.persist two)]⟩
    let begin : Crowd Frame := start (Queue.empty 2) 2
    have h : Run Step begin [] begin := .start
    have h := (h.next (.ask (i := 0) (.offer (.numbered 1)) rfl)).next (.enter (i := 0) rfl rfl)
    have h : Run Step begin _ s := h.next (.notifyNobody (i := 0) rfl rfl)
    have hask : Step s (1, .asks (.persist two)) s₀ := .ask (.persist two) rfl
    -- the thread waits in vain, waits again, and is woken by the one who has taken the item out
    let woken : Crowd Frame := ⟨full, [.free, .roused (.persist two)]⟩
    let taking : Crowd Frame := ⟨full, [.entering .take, .parked (.persist two)]⟩
    let s₁ : Crowd Frame := ⟨⟨⟨#[none, none], 1, 1⟩, false⟩, [.free, .roused (.persist two)]⟩
    have hagain : Step woken (1, .retried two) s₀ :=
      .reenter_of (p := ⟨.retried two, .entering (.persist two), full⟩) rfl
        (by simp [woken, full, Request.act, Queue.offer, Ring.push?, Ring.isFull, Ring.next,
          Ring.size])
    have htake : Step taking (0, .took (some (.numbered 1))) _ :=
      .enter_of (p := ⟨_, .notifying .room, ⟨⟨#[none, none], 1, 1⟩, false⟩⟩) rfl rfl rfl
    have hu : Run Step s₀ [] s₀ := .start
    have hu := (hu.next (.park (i := 1) rfl (by decide))).next (.leave (i := 1) rfl)
    have hu := (hu.next hagain).next (.park (i := 1) rfl (by decide))
    have hu := (hu.next (.ask (i := 0) .take rfl)).next htake
    let u : List (Nat × Deed Frame) := [(1, .parks), (1, .leaves), (1, .retried two), (1, .parks),
      (0, .asks .take), (0, .took (some (.numbered 1))), (0, .notifies)]
    have hu : Run Step s₀ u s₁ := hu.next (.notify (i := 0) (j := 1) rfl rfl rfl)
    have hreply : Step s₁ (1, .offered two .accepted) _ :=
      .reenter_of (p := ⟨.offered two .accepted, .notifying .item, _⟩) rfl
        (by simp [s₁, Request.act, Request.settle, Queue.offer, Ring.push?, Ring.isFull, Ring.next,
          Ring.size]; rfl)
    have hopen : ∀ e ∈ u, e.1 = 1 → e.2.reply? = none := by simp [u, Deed.reply?]
    obtain ⟨-, earlier, others, r, -, hr, -, hserved⟩ :=
      hcrowd _ _ hb rfl 2 _ s 1 s₀ h hask u s₁ two .accepted _ hu hopen hreply
    have hretried : (1, .retried (.numbered 2)) ∈ u := by simp [u, two]
    exact ⟨_, s, s₀, u, s₁, _, h, hask, hu, hretried, hreply, earlier, others, r, hr, hserved⟩

end Crowd

end SheddingQueue
