import SheddingQueue.Crowd.History
import SheddingQueue.Queue.Contents

/-!
# What a step of a crowd can do

`Effect` lists all that can come of one time in the lock, and `act_effect` says that nothing else
does. `Step.contents` draws from it what a step does to the items in the queue. The
invariants of crowds rest on these two.
-/

namespace SheddingQueue

namespace Crowd

variable {α : Type} {n i : Nat} {xs ys : List α} {q : Queue α} {r : Request α} {p : Passage α}
  {s s' : Crowd α} {d : Deed α}

/-! ## In the lock -/

/-- All that can come of the call `r` in the lock, on a queue with `n` slots: `xs` is stored before
it and `ys` after it. -/
inductive Effect (n : Nat) (q : Queue α) (xs : List α) (r : Request α) :
    Passage α → List α → Prop where
  | stored {x : α} {q' : Queue α} (hx : r.item? = some x) (hopen : q.closed = false)
      (hroom : xs.length + 1 < n) (hopen' : q'.closed = false) :
      Effect n q xs r ⟨.offered x .accepted, .notifying .item, q'⟩ (xs ++ [x])
  | rejected {x : α} (hx : r.item? = some x) (hclosed : q.closed = true) :
      Effect n q xs r ⟨.offered x (.refused .closed x), .free, q⟩ xs
  | full {x : α} (hx : r.item? = some x) (hopen : q.closed = false)
      (hfull : xs.length + 1 = n) : Effect n q xs r ⟨.offered x (.refused .full x), .free, q⟩ xs
  | again {x : α} (hr : r = .persist x) (hopen : q.closed = false)
      (hfull : xs.length + 1 = n) : Effect n q xs r ⟨.retried x, .entering r, q⟩ xs
  | taken {x : α} {ys : List α} {q' : Queue α} (hr : r.takes = true) (hxs : xs = x :: ys)
      (hclosed : q'.closed = q.closed) :
      Effect n q xs r ⟨.took (some x), .notifying .room, q'⟩ ys
  | nothing (hr : r.takes = true) (hxs : xs = []) : Effect n q xs r ⟨.took none, .free, q⟩ xs
  | closed (hx : r.item? = none) (ha : r.awaits? = none) :
      Effect n q xs r ⟨.closed, .hailing .item, q.close⟩ xs

theorem settle_effect (h : q.Stores n xs) {x : α} (hx : r.item? = some x) :
    ∃ ys, Effect n q xs r (Request.settle x (q.offer x)) ys ∧
      (Request.settle x (q.offer x)).queue.Stores n ys := by
  rcases h.offer_cases x with ⟨hc, ho⟩ | ⟨hopen, hfull, ho⟩ | ⟨hopen, hroom, q', ho, hopen', hs⟩
  · rw [ho]
    exact ⟨xs, .rejected hx hc, h⟩
  · rw [ho]
    exact ⟨xs, .full hx hopen hfull, h⟩
  · rw [ho]
    exact ⟨xs ++ [x], .stored hx hopen hroom hopen', hs⟩

theorem persist_effect (h : q.Stores n xs) (x : α) :
    ∃ ys, Effect n q xs (.persist x) ((Request.persist x).act q) ys ∧
      ((Request.persist x).act q).queue.Stores n ys := by
  rw [Request.act]
  rcases h.offer_cases x with ⟨hc, ho⟩ | ⟨hopen, hfull, ho⟩ | ⟨hopen, hroom, q', ho, hopen', hs⟩
  · rw [ho]
    exact ⟨xs, .rejected rfl hc, h⟩
  · rw [ho]
    exact ⟨xs, .again rfl hopen hfull, h⟩
  · rw [ho]
    exact ⟨xs ++ [x], .stored rfl hopen hroom hopen', hs⟩

theorem take_effect (h : q.Stores n xs) (hr : r.takes = true) :
    ∃ ys, Effect n q xs r (Request.take.act q) ys ∧ (Request.take.act q).queue.Stores n ys := by
  rw [Request.act]
  rcases h.take_cases with ⟨hxs, ht⟩ | ⟨x, ys, q', hxs, ht, hc, hs⟩
  · rw [ht]
    exact ⟨xs, .nothing hr hxs, h⟩
  · rw [ht]
    exact ⟨ys, .taken hr hxs hc, hs⟩

/-- Nothing else comes of a call in the lock. -/
theorem act_effect (h : q.Stores n xs) (r : Request α) :
    ∃ ys, Effect n q xs r (r.act q) ys ∧ (r.act q).queue.Stores n ys := by
  cases r with
  | offer x => exact settle_effect h rfl
  | offerWithin x => exact settle_effect h rfl
  | persist x => exact persist_effect h x
  | take => exact take_effect h rfl
  | takeWithin => exact take_effect h rfl
  | close => exact ⟨xs, .closed rfl rfl, h.close⟩
  | drop => exact ⟨xs, .closed rfl rfl, h.close⟩

namespace Effect

/-- What was in the queue, and then what is stored, is what is taken, and then what is left. -/
theorem contents (h : Effect n q xs r p ys) :
    xs ++ p.deed.stored?.toList = p.deed.taken?.toList ++ ys := by
  cases h with
  | taken hr hxs hc => simp [Deed.stored?, Deed.taken?, hxs]
  | _ => simp [Deed.stored?, Deed.taken?]

theorem item (h : Effect n q xs r p ys) :
    r.item?.toList = (p.deed.reply?.map Prod.fst).toList ++ p.phase.item?.toList := by
  cases h with
  | stored hx | rejected hx | full hx => simp [hx, Deed.reply?, Phase.item?]
  | again hr => simp [Deed.reply?, Phase.item?]
  | taken hr | nothing hr =>
    cases r <;> simp_all [Request.takes, Request.item?, Deed.reply?, Phase.item?]
  | closed hx => simp [hx, Deed.reply?, Phase.item?]

theorem sent (h : Effect n q xs r p ys) : p.deed.sent? = none := by
  cases h <;> rfl

theorem of_findsFull (h : Effect n q xs r p ys) (hf : p.deed.findsFull = true) :
    xs.length + 1 = n ∧ q.closed = false := by
  cases h with
  | full hx hopen hfull => exact ⟨hfull, hopen⟩
  | again hr hopen hfull => exact ⟨hfull, hopen⟩
  | _ => simp [Deed.findsFull] at hf

theorem of_refused_closed (h : Effect n q xs r p ys) {x y : α}
    (hd : p.deed = .offered x (.refused .closed y)) : y = x ∧ q.closed = true := by
  cases h with
  | rejected hx hc =>
    cases hd
    exact ⟨rfl, hc⟩
  | _ => simp at hd

theorem of_took_none (h : Effect n q xs r p ys) (hd : p.deed = .took none) : xs = [] := by
  cases h with
  | nothing hr hxs => exact hxs
  | _ => simp at hd

theorem of_closed (h : Effect n q xs r p ys) (hc : q.closed = true) :
    p.queue.closed = true ∧ p.deed.stored? = none := by
  cases h with
  | stored hx hopen => simp [hc] at hopen
  | rejected | nothing => exact ⟨hc, rfl⟩
  -- a closed queue refuses as closed even if it is full
  | full hx hopen | again hr hopen => simp [hc] at hopen
  | taken hr hxs hq => exact ⟨hq.trans hc, rfl⟩
  | closed => exact ⟨rfl, rfl⟩

end Effect

/-! ## Steps -/

namespace Step

/-- A step leaves the queue alone and is no passage of the lock, or it is one of the effects. -/
theorem effect (h : Step s (i, d) s') (hq : s.queue.Stores n xs) :
    (d.quiet = true ∧ s'.queue = s.queue) ∨
    (∃ r p ys, Effect n s.queue xs r p ys ∧ p.deed = d ∧ p.queue = s'.queue ∧
      s'.queue.Stores n ys) := by
  -- to enter for the first time and to enter again after waiting come to the same
  cases h with
  | @enter _ r =>
    obtain ⟨ys, he, hs⟩ := act_effect hq r
    exact .inr ⟨r, _, ys, he, rfl, rfl, hs⟩
  | @reenter _ r =>
    obtain ⟨ys, he, hs⟩ := act_effect hq r
    exact .inr ⟨r, _, ys, he, rfl, rfl, hs⟩
  | ask | park | leave | notify | notifyNobody | hail => exact .inl ⟨rfl, rfl⟩

theorem contents (h : Step s (i, d) s') (hq : s.queue.Stores n xs) :
    ∃ ys, s'.queue.Stores n ys ∧ xs ++ d.stored?.toList = d.taken?.toList ++ ys := by
  rcases h.effect hq with ⟨hd, hs⟩ | ⟨r, p, ys, he, rfl, -, hs⟩
  · exact ⟨xs, hs ▸ hq, by rw [Deed.stored?_of_quiet hd, Deed.taken?_of_quiet hd]; simp⟩
  · exact ⟨ys, hs, he.contents⟩

/-- An item finds no room only if the queue is open and all slots but the gap are taken. -/
theorem of_findsFull (h : Step s (i, d) s') (hq : s.queue.Stores n xs) (hf : d.findsFull = true) :
    xs.length + 1 = n ∧ s.queue.closed = false := by
  rcases h.effect hq with ⟨hd, -⟩ | ⟨r, p, ys, he, rfl, -, -⟩
  · cases d <;> simp [Deed.quiet, Deed.findsFull] at hd hf
  · exact he.of_findsFull hf

/-- An item is refused as closed only by a closed queue. -/
theorem of_refused_closed {x y : α} (h : Step s (i, .offered x (.refused .closed y)) s')
    (hq : s.queue.Stores n xs) : y = x ∧ s.queue.closed = true := by
  rcases h.effect hq with ⟨hd, -⟩ | ⟨r, p, ys, he, hp, -, -⟩
  · cases hd
  · exact he.of_refused_closed hp

theorem of_took_none (h : Step s (i, .took none) s') (hq : s.queue.Stores n xs) : xs = [] := by
  rcases h.effect hq with ⟨hd, -⟩ | ⟨r, p, ys, he, hp, -, -⟩
  · cases hd
  · exact he.of_took_none hp

/-- A closed queue stays closed, and nothing is stored in it. -/
theorem of_closed (h : Step s (i, d) s') (hq : s.queue.Stores n xs) (hc : s.queue.closed = true) :
    s'.queue.closed = true ∧ d.stored? = none := by
  rcases h.effect hq with ⟨hd, hs⟩ | ⟨r, p, ys, he, rfl, hp, -⟩
  · exact ⟨hs ▸ hc, Deed.stored?_of_quiet hd⟩
  · exact hp ▸ he.of_closed hc

end Step

/-- Over a run, what was in the queue and then what has been stored is what has been taken and
then what is left. -/
theorem contents_of_run {t : List (Nat × Deed α)} (h : Run Step s t s') (hq : s.queue.Stores n xs) :
    ∃ ys, s'.queue.Stores n ys ∧ xs ++ (pushes t).map Prod.snd = taken t ++ ys := by
  -- the induction is on the run, and what is stored in the end moves along with it
  induction h with
  | start => exact ⟨xs, hq, by simp [pushes, taken]⟩
  | @next t b c l _ hs ih =>
    obtain ⟨ys, hb, hy⟩ := ih
    obtain ⟨i, d⟩ := l
    obtain ⟨zs, hc, hz⟩ := hs.contents hb
    refine ⟨zs, hc, ?_⟩
    calc
      xs ++ (pushes (t ++ [(i, d)])).map Prod.snd
      _ = xs ++ (pushes t).map Prod.snd ++ d.stored?.toList := by
        rw [pushes_snoc]
        simp [Function.comp_def]
      _ = taken t ++ (ys ++ d.stored?.toList) := by rw [hy, List.append_assoc]
      _ = taken (t ++ [(i, d)]) ++ zs := by rw [hz, taken_snoc, List.append_assoc]

end Crowd

end SheddingQueue
