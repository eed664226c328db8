import SheddingQueue.Proofs.Build
import SheddingQueue.Proofs.Crowd.Effect
import SheddingQueue.Proofs.Session.Deals

/-!
# Closing is final

`Queue.Final` is what is known of a queue since it was closed. Offers, takes and further closing
keep to it one by one, and so do the deals of sessions and the steps of crowds, which consist of
these. `Session.Final` and `Crowd.Final` say what this comes to for those who use the queue.
-/

namespace SheddingQueue

namespace Queue

variable {α : Type} {n : Nat} {xs : List α} {offers : List (α × Admission α)}
  {found : List (Option α)} {q : Queue α}

/-- A queue since it was closed with `xs` in it: what was offered and with what answers, and what
the takes have found. -/
structure Final (n : Nat) (xs : List α) (offers : List (α × Admission α))
    (found : List (Option α)) (q : Queue α) : Prop where
  closed : q.closed = true
  refused : ∀ e ∈ offers, e.2 = .refused .closed e.1
  /-- The items come out in order, and nothing after the last one. -/
  found_eq : found = (List.range found.length).map (xs[·]?)
  stores : q.Stores n (xs.drop found.length)

namespace Final

theorem start (hq : q.Stores n xs) (hc : q.closed = true) : Final n xs [] [] q :=
  ⟨hc, nofun, rfl, hq⟩

theorem offer (h : Final n xs offers found q) (x : α) :
    q.offer x = (.refused .closed x, q) ∧
      Final n xs (offers ++ [(x, .refused .closed x)]) found q := by
  refine ⟨offer_of_closed h.closed x, h.closed, ?_, h.found_eq, h.stores⟩
  intro e he
  rcases List.mem_append.mp he with he | he
  · exact h.refused e he
  · cases List.mem_singleton.mp he
    rfl

theorem take (h : Final n xs offers found q) :
    q.take.1 = xs[found.length]? ∧ Final n xs offers (found ++ [q.take.1]) q.take.2 := by
  have hhead : q.take.1 = xs[found.length]? ∧ q.take.2.closed = true ∧
      q.take.2.Stores n (xs.drop (found.length + 1)) := by
    rw [← List.head?_drop, ← List.tail_drop]
    rcases h.stores.take_cases with ⟨hxs, ht⟩ | ⟨x, ys, r, hxs, ht, hc, hr⟩
    · have hs := h.stores
      rw [hxs] at hs
      rw [ht, hxs]
      exact ⟨rfl, h.closed, hs⟩
    · rw [ht, hxs]
      exact ⟨rfl, hc.trans h.closed, hr⟩
  obtain ⟨hfound, hc, hs⟩ := hhead
  refine ⟨hfound, hc, h.refused, ?_, ?_⟩
  · rw [List.length_append, List.length_singleton, List.range_succ, List.map_append, ← h.found_eq,
      hfound]
    rfl
  · rwa [List.length_append, List.length_singleton]

theorem close (h : Final n xs offers found q) : Final n xs offers found q.close :=
  ⟨rfl, h.refused, h.found_eq, h.stores.close⟩

theorem count_le (h : Final n xs offers found q) : q.count ≤ xs.length := by
  rw [h.stores.count_eq, List.length_drop]
  omega

end Final

end Queue

/-! ## Deals -/

namespace Deal

variable {n : Nat} {xs : List Frame} {offers : List (Frame × Admission Frame)}
  {found : List (Option Frame)} {q q' : Queue Frame} {d : Deal} {ds : List Deal}

theorem Fits.final (hd : Fits q d q') (h : q.Final n xs offers found) :
    q'.Final n xs (offers ++ [d].filterMap offer?) (found ++ [d].filterMap found?) := by
  have offered {f : Frame} {answer : Admission Frame} (ho : q.offer f = (answer, q')) :
      q'.Final n xs (offers ++ [(f, answer)]) (found ++ []) := by
    obtain ⟨hrefused, hfinal⟩ := h.offer f
    cases hrefused.symm.trans ho
    rwa [List.append_nil]
  have took {x : Option Frame} (ht : q.take = (x, q')) :
      q'.Final n xs (offers ++ []) (found ++ [x]) := by
    have hfinal := h.take.2
    rw [ht] at hfinal
    rwa [List.append_nil]
  have other (h : q'.Final n xs offers found) : q'.Final n xs (offers ++ []) (found ++ []) := by
    rwa [List.append_nil, List.append_nil]
  match d, hd with
  | .enqueued f answer, hd => exact offered hd
  | .looked x outcome, hd => exact took hd.1
  | .given outcome, hd => exact other (hd.2 ▸ h)
  | .exchanged (.offered f answer), hd => exact offered hd
  | .exchanged (.took x), hd => exact took hd
  | .exchanged .closed, hd => exact other (hd ▸ h.close)
  | .exchanged .cancelled, hd => exact other (hd ▸ h)

theorem final_of_run (hr : Run Fits q ds q') (h : q.Final n xs [] []) :
    q'.Final n xs (ds.filterMap offer?) (ds.filterMap found?) := by
  induction hr with
  | start => exact h
  | next _ hd ih =>
    rw [List.filterMap_append, List.filterMap_append]
    exact hd.final ih

end Deal

/-! ## Sessions -/

namespace Session

/-- What a session keeps to since its queue was closed: `s` is the session then, and `later` is
what has been done since then. -/
structure Final (s : Session) (later : List Operation) : Prop where
  closed : (s.after later).queue.closed = true
  /-- Whoever offered a frame got this frame back, with the answer that the queue is closed. -/
  refused : ∀ f answer, (f, answer) ∈ (s.along deals later).filterMap Deal.offer? →
    answer = .refused .closed f
  /-- What the takes found, one after another, is what was in the queue, and then nothing. -/
  found : let found := (s.along deals later).filterMap Deal.found?
    found = (List.range found.length).map (s.queue.toList[·]?) ∧
      (s.after later).queue.toList = s.queue.toList.drop found.length
  count_le : (s.after later).queue.count ≤ s.queue.count
  /-- Further calls return, whatever the policy and be the queue full or not. -/
  offer : ∀ p source f, (s.after later).hasProducer p = true → source.frame? = .ok f →
    ((s.after later).perform (.offer p source)).1 = .refused .closed f ∧
      ((s.after later).perform (.enqueue p source)).1 = .refused .closed f
  take : (s.after later).held = true →
    let next := s.queue.toList[((s.along deals later).filterMap Deal.found?).length]?
    ((s.after later).perform .take).1 = .took next ∧
      ((s.after later).perform .takeWithin).1 = .took next

theorem enqueue_of_closed {s : Session} (h : s.queue.closed = true) (f : Frame) :
    (s.enqueue [] f answered).1 = .refused .closed f := by
  have hwaits : s.queue.offerWaits = false := by simp [Queue.offerWaits, h]
  rw [enqueue]
  cases s.policy with
  | drop =>
    rw [Producer.enqueue, Queue.offer_of_closed h]
    rfl
  | retry =>
    rw [Producer.enqueue, Producer.retry, hwaits, if_neg Bool.false_ne_true,
      Queue.offer_of_closed h]
    rfl

/-- Each way to close the queue does so at once, and leaves the frames in it. -/
theorem closes {s : Session} {op : Operation} (hop : op.closes = true)
    (hdone : (s.perform op).1 = .done) :
    (s.next op).queue.closed = true ∧ (s.next op).queue.toList = s.queue.toList := by
  cases op with
  | closeQueue =>
    rw [perform, withQueue] at hdone
    split at hdone
    · rename_i h
      rw [next, perform, withQueue, if_pos h]
      exact ⟨rfl, rfl⟩
    · cases hdone
  | dropQueue =>
    rw [perform, withQueue] at hdone
    split at hdone
    · rename_i h
      rw [next, perform, withQueue, if_pos h]
      exact ⟨rfl, rfl⟩
    · cases hdone
  | closeProducer p =>
    rw [perform, withProducer] at hdone
    split at hdone
    · rename_i h
      rw [next, perform, withProducer, if_pos h]
      exact ⟨rfl, rfl⟩
    · cases hdone
  | _ => cases hop

theorem final_of_closed {s : Session} {n : Nat} {xs : List Frame} (hq : s.queue.Stores n xs)
    (hc : s.queue.closed = true) {later : List Operation}
    (hlater : ∀ op ∈ later, op.isCall = true) : Final s later := by
  have hdeals := s.deals_after hlater
  have h := Deal.final_of_run hdeals.run (.start hq hc)
  have htake := h.take.1
  refine ⟨h.closed, ?_, ?_, ?_, ?_, ?_⟩
  · intro f answer hmem
    exact h.refused _ hmem
  · rw [hq.toList_eq, h.stores.toList_eq]
    exact ⟨h.found_eq, rfl⟩
  · rw [hq.count_eq]
    exact h.count_le
  · intro p source f hp hf
    rw [perform, withProducer, if_pos hp, withFrame, hf, perform, withProducer, if_pos hp,
      withFrame, hf]
    refine ⟨?_, enqueue_of_closed h.closed f⟩
    dsimp only
    rw [Queue.offer_of_closed h.closed]
    rfl
  · intro hheld
    rw [perform, withQueue, if_pos hheld, perform, withQueue, if_pos hheld, Queue.takeWithin_id,
      hq.toList_eq]
    exact ⟨congrArg _ htake, congrArg _ htake⟩

end Session

/-! ## Crowds -/

namespace Crowd

variable {α : Type} {n : Nat} {xs : List α} {offers : List (α × Admission α)}
  {found : List (Option α)} {q : Queue α} {s s' : Crowd α} {l : Nat × Deed α}

/-- What a crowd keeps to since its queue was closed: `s` is the crowd then, and `s'` the one after
the history `u`. -/
structure Final (s : Crowd α) (u : List (Nat × Deed α)) (s' : Crowd α) : Prop where
  closed : s'.queue.closed = true
  /-- Whoever offered an item, be it in a call that was made before, got this item back. -/
  refused : ∀ x answer, (x, answer) ∈ u.filterMap (·.2.reply?) → answer = .refused .closed x
  /-- Nobody begins to wait any more, and no attempt is followed by another one. -/
  settled : ∀ e ∈ u, ∀ x, e.2 ≠ .parks ∧ e.2 ≠ .retried x
  /-- What the takes found, one after another, is what was in the queue, and then nothing. -/
  found : let found := u.filterMap (·.2.found?)
    found = (List.range found.length).map (s.queue.toList[·]?) ∧
      s'.queue.toList = s.queue.toList.drop found.length
  count_le : s'.queue.count ≤ s.queue.count

theorem act_final (h : q.Final n xs offers found) (r : Request α) :
    (r.act q).deed.quiet = false ∧ (∀ x, (r.act q).deed ≠ .retried x) ∧
      (r.act q).queue.Final n xs (offers ++ [(r.act q).deed].filterMap Deed.reply?)
        (found ++ [(r.act q).deed].filterMap Deed.found?) := by
  have offered (x : α) : let p := Request.settle x (q.offer x)
      p.deed.quiet = false ∧ (∀ y, p.deed ≠ .retried y) ∧
        p.queue.Final n xs (offers ++ [p.deed].filterMap Deed.reply?)
          (found ++ [p.deed].filterMap Deed.found?) := by
    obtain ⟨hrefused, hfinal⟩ := h.offer x
    rw [hrefused]
    refine ⟨rfl, fun y h => (by cases h), ?_⟩
    show q.Final n xs (offers ++ [(x, _)]) (found ++ [])
    rwa [List.append_nil]
  have took : let p := Request.collect q.take
      p.deed.quiet = false ∧ (∀ y, p.deed ≠ .retried y) ∧
        p.queue.Final n xs (offers ++ [p.deed].filterMap Deed.reply?)
          (found ++ [p.deed].filterMap Deed.found?) := by
    have hfinal := h.take.2
    rcases ht : q.take with ⟨x, q'⟩
    rw [ht] at hfinal
    have hfinal : q'.Final n xs (offers ++ []) (found ++ [x]) := by rwa [List.append_nil]
    cases x with
    | none => exact ⟨rfl, fun y h => (by cases h), hfinal⟩
    | some x => exact ⟨rfl, fun y h => (by cases h), hfinal⟩
  have closed : q.close.Final n xs (offers ++ []) (found ++ []) := by
    rw [List.append_nil, List.append_nil]
    exact h.close
  cases r with
  | offer x => exact offered x
  | offerWithin x => exact offered x
  | persist x =>
    -- a queue that is closed does not refuse as full
    have hact : (Request.persist x).act q = Request.settle x (q.offer x) := by
      rw [Request.act, (h.offer x).1]
    rw [hact]
    exact offered x
  | take => exact took
  | takeWithin => exact took
  | close => exact ⟨rfl, fun y h => (by cases h), closed⟩
  | drop => exact ⟨rfl, fun y h => (by cases h), closed⟩

theorem Step.final (hs : Step s l s') (h : s.queue.Final n xs offers found) :
    (∀ x, l.2 ≠ .parks ∧ l.2 ≠ .retried x) ∧
      s'.queue.Final n xs (offers ++ [l.2].filterMap Deed.reply?)
        (found ++ [l.2].filterMap Deed.found?) := by
  have inLock (r : Request α) : (∀ x, (r.act s.queue).deed ≠ .parks ∧
      (r.act s.queue).deed ≠ .retried x) ∧
      (r.act s.queue).queue.Final n xs (offers ++ [(r.act s.queue).deed].filterMap Deed.reply?)
        (found ++ [(r.act s.queue).deed].filterMap Deed.found?) := by
    obtain ⟨hquiet, hretried, hfinal⟩ := act_final h r
    refine ⟨fun x => ⟨?_, hretried x⟩, hfinal⟩
    intro hparks
    rw [hparks] at hquiet
    cases hquiet
  have outside : s.queue.Final n xs (offers ++ []) (found ++ []) := by
    rwa [List.append_nil, List.append_nil]
  cases hs with
  | @enter _ r => exact inLock r
  | @reenter _ r => exact inLock r
  | @park _ r hi hsleeps =>
    have hwakes : r.sleeps s.queue = false := by
      cases r <;> simp [Request.sleeps, Request.awaits?, Signal.lacking, Queue.offerWaits,
        Queue.takeWaits, h.closed]
    rw [hwakes] at hsleeps
    cases hsleeps
  | ask | leave | notify | notifyNobody | hail =>
    exact ⟨fun x => ⟨fun h => (by cases h), fun h => (by cases h)⟩, outside⟩

theorem final_of_run {u : List (Nat × Deed α)} (hr : Run Step s u s')
    (h : s.queue.Final n xs [] []) :
    (∀ e ∈ u, ∀ x, e.2 ≠ .parks ∧ e.2 ≠ .retried x) ∧
      s'.queue.Final n xs (u.filterMap (·.2.reply?)) (u.filterMap (·.2.found?)) := by
  induction hr with
  | start => exact ⟨nofun, h⟩
  | @next u _ _ l _ hs ih =>
    obtain ⟨hsettled, hfinal⟩ := ih
    obtain ⟨hl, hfinal⟩ := hs.final hfinal
    constructor
    · intro e he
      rcases List.mem_append.mp he with he | he
      · exact hsettled e he
      · cases List.mem_singleton.mp he
        exact hl
    · rw [List.filterMap_append, List.filterMap_append]
      exact hfinal

theorem closed_of_step {i : Nat} (hs : Step s (i, .closed) s') (hq : s.queue.Stores n xs) :
    s'.queue.closed = true ∧ s'.queue.toList = s.queue.toList := by
  rcases hs.effect hq with ⟨hd, -⟩ | ⟨r, p, ys, he, hp, hs', hys⟩
  · cases hd
  · cases he with
    | closed => exact ⟨hs' ▸ rfl, hs' ▸ rfl⟩
    | _ => cases hp

theorem final_of_closed (hq : s.queue.Stores n xs) (hc : s.queue.closed = true)
    {u : List (Nat × Deed α)} (hr : Run Step s u s') : Final s u s' := by
  obtain ⟨hsettled, h⟩ := final_of_run hr (.start hq hc)
  refine ⟨h.closed, ?_, hsettled, ?_, ?_⟩
  · intro x answer hmem
    exact h.refused _ hmem
  · rw [hq.toList_eq, h.stores.toList_eq]
    exact ⟨h.found_eq, rfl⟩
  · rw [hq.count_eq]
    exact h.count_le

end Crowd

/-! ## Both -/

variable {st : Settings} {b : Built Frame}

/-- However a queue is closed, it keeps its frames, and whatever is done afterwards it stays closed,
refuses every frame and gives its own frames out in order. This holds for one operation after
another and for threads that call the queue at the same time. -/
theorem closing_is_final (hb : st.build Frame = .ok b) :
    (∀ before, (∀ op ∈ before, op.isCall = true) →
      let s := (Session.ofBuilt b).after before
      (∀ op, op.closes = true → (s.perform op).1 = .done →
        (s.next op).queue.closed = true ∧ (s.next op).queue.toList = s.queue.toList) ∧
      (s.queue.closed = true → ∀ later, (∀ op ∈ later, op.isCall = true) → s.Final later)) ∧
    (∀ m t c, Run Crowd.Step (Crowd.start b.queue m) t c →
      (∀ i c', Crowd.Step c (i, .closed) c' →
        c'.queue.closed = true ∧ c'.queue.toList = c.queue.toList) ∧
      (c.queue.closed = true → ∀ u c', Run Crowd.Step c u c' → c.Final u c')) := by
  obtain ⟨hq, -⟩ := Settings.stores_of_build hb
  constructor
  · intro before hbefore s
    have hdeals := (Session.ofBuilt b).deals_after hbefore
    obtain ⟨xs, hs, -⟩ := Deal.contents_of_run hdeals.run hq
    exact ⟨fun op => Session.closes, fun hc later => Session.final_of_closed hs hc⟩
  · intro m t c hrun
    obtain ⟨xs, hs, -⟩ := Crowd.contents_of_run (s := Crowd.start b.queue m) hrun hq
    exact ⟨fun i c' hstep => Crowd.closed_of_step hstep hs,
      fun hc u c' => Crowd.final_of_closed hs hc⟩

/-- The only usable slot is taken when the queue is closed. A producer that is made afterwards
enqueues in vain, and so does a thread that has been waiting for room since before. -/
theorem closing_is_final_for_full : ∃ b,
    ({ capacity := 2, policy := .patient } : Settings).build Frame = .ok b ∧
    (let enqueue (p n : Nat) : Operation := .enqueue p (.frame (Session.specimen n))
    let s := ((Session.ofBuilt b).after [enqueue 0 1]).next (.closeProducer 0)
    s.queue.closed = true ∧ s.queue.toList = [Session.specimen 1] ∧
      s.Final [.newProducer, enqueue 1 2, .take, .takeWithin]) ∧
    ∃ t c u c', Run Crowd.Step (Crowd.start b.queue 2) t c ∧ c.queue.closed = true ∧
      c.threads[1]? = some (.parked (.persist (.numbered 2))) ∧ Run Crowd.Step c u c' ∧
      c.Final u c' := by
  have hb : ({ capacity := 2, policy := .patient } : Settings).build Frame =
    .ok ⟨_, _, _, _, _⟩ := rfl
  obtain ⟨hsession, hcrowd⟩ := closing_is_final hb
  refine ⟨_, hb, ?_, ?_⟩
  · intro enqueue s
    let before := [enqueue 0 1]
    have hbefore : ∀ op ∈ before, op.isCall = true := by
      simp [before, enqueue, Operation.isCall]
    obtain ⟨hclosed, hkept⟩ := (hsession before hbefore).1 (.closeProducer 0) rfl rfl
    have hbefore' : ∀ op ∈ before ++ [.closeProducer 0], op.isCall = true := by
      simp [before, enqueue, Operation.isCall]
    refine ⟨hclosed, hkept, (hsession _ hbefore').2 hclosed _ ?_⟩
    simp [enqueue, Operation.isCall]
  · let start : Crowd Frame := Crowd.start (Queue.empty 2) 2
    have h : Run Crowd.Step start [] start := .start
    have h := (h.next (.ask (i := 0) (.offer (.numbered 1)) rfl)).next (.enter (i := 0) rfl rfl)
    have h := (h.next (.notifyNobody (i := 0) rfl rfl)).next
      (.ask (i := 1) (.persist (.numbered 2)) rfl)
    have h := (h.next (.park (i := 1) rfl (by decide))).next (.ask (i := 0) .close rfl)
    let c : Crowd Frame := ⟨⟨⟨#[some (.numbered 1), none], 0, 1⟩, false⟩,
      [.entering .close, .parked (.persist (.numbered 2))]⟩
    have h : Run Crowd.Step start _ c := h
    let p : Crowd.Passage Frame := ⟨.closed, .hailing .item, c.queue.close⟩
    have hstep : Crowd.Step c (0, .closed) (c.pass 0 p) :=
      .enter_of (r := .close) (p := p) rfl rfl rfl
    have hclosed := ((hcrowd 2 _ _ h).1 0 _ hstep).1
    have hleave : Crowd.Step (c.pass 0 p) (1, .leaves) _ := .leave rfl
    have hu := (Run.single hleave).next (.reenter (i := 1) rfl)
    exact ⟨_, _, _, _, h.next hstep, hclosed, rfl, hu,
      (hcrowd 2 _ _ (h.next hstep)).2 hclosed _ _ hu⟩

end SheddingQueue
