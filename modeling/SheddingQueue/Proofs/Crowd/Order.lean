import SheddingQueue.Proofs.Build
import SheddingQueue.Proofs.Crowd.Effect

/-!
# The order of the items

Whatever the threads of a crowd do and in whatever order they do it, a queue gives the items out
in the order in which it has accepted them, and of each thread it has accepted the items in the
order in which the thread sent them. `Fifo` collects this with the bounds on what is stored.
-/

namespace SheddingQueue

namespace Crowd

variable {α : Type} {n i j : Nat} {xs : List α} {s s' : Crowd α} {d : Deed α} {ph ph' : Phase α}

/-! ## What a thread still has to store -/

def item? (s : Crowd α) (i : Nat) : Option α := (s.threads[i]?).bind Phase.item?

theorem item?_of (h : s.threads[i]? = some ph) : s.item? i = ph.item? := by
  rw [item?, h, Option.bind_some]

theorem item?_move_self (h : s.threads[i]? = some ph) (ph' : Phase α) :
    (s.move i ph').item? i = ph'.item? := by
  apply item?_of
  exact List.getElem?_set_self (List.getElem?_eq_some_iff.mp h).1

theorem item?_move_ne (h : i ≠ j) (ph : Phase α) : (s.move i ph).item? j = s.item? j := by
  rw [item?, move, List.getElem?_set_ne h, item?]

/-- To be moved without losing the item changes nothing for anyone. -/
theorem item?_move (h : s.threads[i]? = some ph) (ph' : Phase α) (hi : ph'.item? = ph.item?)
    (j : Nat) : (s.move i ph').item? j = s.item? j := by
  by_cases hij : i = j
  · subst hij
    rw [item?_move_self h, item?_of h, hi]
  · exact item?_move_ne hij ph'

theorem item?_rouse (c : Signal) (ph : Phase α) : (ph.rouse c).item? = ph.item? := by
  cases ph with
  | parked r =>
    rw [Phase.rouse]
    split <;> rfl
  | _ => rfl

theorem item?_rouseAll (c : Signal) (j : Nat) : (s.rouseAll c).item? j = s.item? j := by
  rw [item?, item?, rouseAll, List.getElem?_map]
  cases s.threads[j]? with
  | none => rfl
  | some ph => exact item?_rouse c ph

/-- What a thread had to store, and then what it sends, is what is answered for, and then what it
still has to store. -/
theorem Step.item (h : Step s (i, d) s') (hq : s.queue.Stores n xs) :
    (s.item? i).toList ++ d.sent?.toList =
      (d.reply?.map Prod.fst).toList ++ (s'.item? i).toList := by
  -- inside the lock the effect of the call decides, whether it has waited before or not
  have inLock {ph : Phase α} {r : Request α} (h : s.threads[i]? = some ph)
      (hr : ph.item? = r.item?) :
      (s.item? i).toList ++ (r.act s.queue).deed.sent?.toList =
        ((r.act s.queue).deed.reply?.map Prod.fst).toList ++
          ((s.pass i (r.act s.queue)).item? i).toList := by
    obtain ⟨ys, he, -⟩ := act_effect hq r
    have hs : (s.pass i (r.act s.queue)).item? i = (r.act s.queue).phase.item? :=
      item?_move_self h _
    rw [item?_of h, hr, he.sent, hs, Option.toList_none, List.append_nil]
    exact he.item
  cases h with
  | ask r h => simp [item?_of h, item?_move_self h, Phase.item?, Deed.sent?, Deed.reply?]
  | enter h => exact inLock h rfl
  | reenter h => exact inLock h rfl
  | park h => simp [item?_move h (.parked _) rfl, Deed.sent?, Deed.reply?]
  | leave h => simp [item?_move h (.roused _) rfl, Deed.sent?, Deed.reply?]
  | notifyNobody h => simp [item?_move h .free rfl, Deed.sent?, Deed.reply?]
  | notify h hj hr =>
    have hj' := parked_of_move h hj .free
    rw [item?_move hj' (.roused _) rfl, item?_move h .free rfl]
    simp [Deed.sent?, Deed.reply?]
  | @hail _ c h =>
    have h' : (s.rouseAll c).threads[i]? = some (.hailing c) := by
      rw [rouseAll, List.getElem?_map, h]
      rfl
    rw [item?_move h' (Phase.afterHail c) (by cases c <;> rfl), item?_rouseAll]
    simp [Deed.sent?, Deed.reply?]

/-- A thread has nothing to do with the steps of another one, even if it is woken by it. -/
theorem Step.item_ne (h : Step s (i, d) s') (hij : i ≠ j) : s'.item? j = s.item? j := by
  cases h with
  | ask | park | leave | notifyNobody => exact item?_move_ne hij _
  | enter | reenter => exact item?_move_ne hij _
  | notify h hk hr =>
    -- the thread that is woken keeps its call
    have hk' := parked_of_move h hk .free
    rw [item?_move hk' (.roused _) rfl, item?_move_ne hij]
  | hail => rw [item?_move_ne hij, item?_rouseAll]

/-! ## Calls and their answers -/

theorem item?_start (q : Queue α) (m i : Nat) : (start q m).item? i = none := by
  rw [item?, start, List.getElem?_replicate]
  split <;> rfl

/-- A thread makes one call after another: what it has sent is what is answered for, in the same
order, and then what it still has to store. -/
theorem sent_eq {q : Queue α} {m : Nat} {t : List (Nat × Deed α)} (hq : q.Stores n [])
    (h : Run Step (start q m) t s) (i : Nat) :
    sent i t = (replies i t).map Prod.fst ++ (s.item? i).toList := by
  induction h with
  | start => rw [item?_start]; rfl
  | @next t b c l hr hs ih =>
    obtain ⟨ys, hb, -⟩ := contents_of_run hr hq
    obtain ⟨j, d⟩ := l
    rw [sent_snoc, replies_snoc, ih]
    by_cases hj : j = i
    · -- what the thread sends or is answered in this step stands at the end of both sides
      subst hj
      have hi := hs.item hb
      have hreply : d.reply?.toList.map Prod.fst = (d.reply?.map Prod.fst).toList := by
        cases d.reply? <;> rfl
      rw [if_pos rfl, if_pos rfl, List.map_append, List.append_assoc, hi, hreply, List.append_assoc]
    · rw [hs.item_ne hj]
      simp [hj]

theorem calls_eq {q : Queue α} {m : Nat} {t : List (Nat × Deed α)} (hq : q.Stores n [])
    (h : Run Step (start q m) t s) (i : Nat) : calls i t = replies i t := by
  have pair (l : List (α × Admission α)) (rest : List α) :
      (l.map Prod.fst ++ rest).zip (l.map Prod.snd) = l := by
    induction l with
    | nil => exact List.zip_nil_right
    | cons a l ih => exact congrArg _ ih
  rw [calls, sent_eq hq h i, pair]

/-- The items of a thread that have come out again, in the order in which they came. -/
def delivered (i : Nat) (t : List (Nat × Deed α)) : List α :=
  share i ((pushes t).take (taken t).length)

/-- What a queue with `slots` slots keeps to, after the history `t` of a crowd in the state `s`. -/
structure Fifo (slots : Nat) (t : List (Nat × Deed α)) (s : Crowd α) : Prop where
  /-- What has been taken out, and then what is stored, is what has been stored, in this order. -/
  contents : taken t ++ s.queue.toList = (pushes t).map Prod.snd
  /-- Of each thread exactly those items have been stored for which a call was accepted, in the
  order of the calls. -/
  senders : ∀ i, share i (pushes t) = (calls i t).filterMap admitted?
  /-- What comes out is what was stored first, and that of each thread in the order in which the
  thread sent it. -/
  order : taken t = ((pushes t).take (taken t).length).map Prod.snd ∧
    ∀ i, delivered i t <+: (calls i t).filterMap admitted?
  count_add : s.queue.count + (taken t).length = (pushes t).length
  count_le : s.queue.count ≤ slots - 1
  /-- An item finds no room only in an open queue in which all slots but the gap are taken. -/
  full : ∀ i d s', Step s (i, d) s' → d.findsFull = true →
    s.queue.count = slots - 1 ∧ s.queue.closed = false
  /-- An item is refused as closed only by a closed queue, which hands it back. -/
  rejected : ∀ i x y s', Step s (i, .offered x (.refused .closed y)) s' →
    y = x ∧ s.queue.closed = true
  /-- Nothing is found only if nothing is stored. -/
  nothing : ∀ i s', Step s (i, .took none) s' → s.queue.count = 0

/-- A new queue keeps to this whatever any number of threads do. -/
theorem bounded_fifo {st : Settings} {b : Built α} (hb : st.build α = .ok b) {m : Nat}
    {t : List (Nat × Deed α)} (h : Run Step (start b.queue m) t s) : Fifo b.capacity t s := by
  obtain ⟨hq, -⟩ := Settings.stores_of_build hb
  obtain ⟨ys, hs, hys⟩ := contents_of_run (s := start b.queue m) h hq
  have hcontents : (pushes t).map Prod.snd = taken t ++ ys := hys
  have hlen : (pushes t).length = (taken t).length + ys.length := by
    have := congrArg List.length hcontents
    simpa using this
  have hlt := hs.length_lt
  have hsenders (i : Nat) : share i (pushes t) = (calls i t).filterMap admitted? := by
    rw [calls_eq hq h, share_pushes]
  refine ⟨?_, hsenders, ⟨?_, ?_⟩, ?_, ?_, ?_, ?_, ?_⟩
  · rw [hs.toList_eq, hcontents]
  · rw [List.map_take, hcontents, List.take_left]
  · intro i
    show share i _ <+: _
    rw [← hsenders i]
    exact (List.take_prefix _ _).filterMap _
  · rw [hs.count_eq, hlen, Nat.add_comm]
  · rw [hs.count_eq]
    omega
  · intro i d s' hstep hd
    obtain ⟨hfull, hopen⟩ := hstep.of_findsFull hs hd
    rw [hs.count_eq]
    exact ⟨by omega, hopen⟩
  · intro i x y s' hstep
    exact hstep.of_refused_closed hs
  · intro i s' hstep
    rw [hs.count_eq, hstep.of_took_none hs]
    rfl

/-- Two threads at a queue with a single usable slot. The first one stores an item and finds no
room for another, and then the second one takes an item out. -/
theorem bounded_fifo_of_two : ∃ t s, Run Step (start (Queue.empty 2 : Queue Nat) 2) t s ∧
    taken t = [7] ∧ pushes t = [(0, 7)] ∧ Fifo 2 t s := by
  have hb : ({ capacity := 2 } : Settings).build Nat = .ok ⟨_, _, _, _, _⟩ := rfl
  have h : Run Step (start (Queue.empty 2 : Queue Nat) 2) [] (start (Queue.empty 2) 2) := .start
  have h := (h.next (.ask (i := 0) (.offer 7) rfl)).next (.enter (i := 0) rfl rfl)
  have h := (h.next (.notifyNobody (i := 0) rfl rfl)).next (.ask (i := 0) (.offer 8) rfl)
  have h := (h.next (.enter (i := 0) rfl rfl)).next (.ask (i := 1) .takeWithin rfl)
  have h := h.next (.enter (i := 1) rfl rfl)
  exact ⟨_, _, h, rfl, rfl, bounded_fifo hb h⟩

end Crowd

end SheddingQueue
