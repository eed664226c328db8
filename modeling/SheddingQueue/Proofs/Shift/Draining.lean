import SheddingQueue.Proofs.Build
import SheddingQueue.Proofs.Crowd.Effect
import SheddingQueue.Shift

/-!
# A shift leaves nothing behind

The consumer asks whether the queue is closed and whether it is empty one after the other, and the
others may do anything in between. That is safe because of the order: once the queue is closed,
nothing is stored in it any more, so what is found empty then stays empty.

`Worker.Advance` lists what a turn of the worker does to the frames. `Ledger` is the invariant of a
shift during which nobody else takes frames out: what has been handled, what is in hand and what
is stored add up to what was there in the beginning and what has been accepted since.
-/

namespace SheddingQueue

variable {n threshold : Nat} {xs ys zs : List Frame} {q q' : Queue Frame} {w w' : Worker}
  {verdict : Verdict} {renderer : Nat → Verdict} {cancelled : Bool}

/-! ## A turn of the worker -/

/-- What a turn from `w` to `w'` does, in which `h` is handled: the queue stores `ys` before it and
`zs` after it. -/
structure Worker.Advance (cancelled : Bool) (q : Queue Frame) (ys : List Frame) (w : Worker)
    (h : Option (Frame × Fate)) (w' : Worker) (q' : Queue Frame) (zs : List Frame) : Prop where
  frames : w.inHand.toList ++ ys = h.toList.map Prod.fst ++ (w'.inHand.toList ++ zs)
  total : w'.tally.total = w.tally.total + h.toList.length
  /-- Nothing is stored. -/
  rest : zs <:+ ys
  closed : q'.closed = q.closed
  /-- The worker looks whether the queue is empty only if it is closed. -/
  asks : w'.phase = .askEmpty → q'.closed = true
  /-- The worker ends its run if it is asked to, or when it finds the queue empty. -/
  ends : w'.finishes = true → zs = ys ∧ h = none ∧
    (w.finishes = true ∨ cancelled = true ∨ (w.phase = .askEmpty ∧ ys = []))

theorem Worker.Advance.look (hw : w.inHand = none) (hw' : w'.inHand = none)
    (htally : w'.tally = w.tally) (hasks : w'.phase = .askEmpty → q.closed = true)
    (hends : w'.finishes = true →
      w.finishes = true ∨ cancelled = true ∨ (w.phase = .askEmpty ∧ ys = [])) :
    Worker.Advance cancelled q ys w none w' q ys :=
  ⟨by rw [hw, hw']; rfl, by rw [htally]; rfl, List.suffix_refl _, rfl, hasks,
    fun h => ⟨rfl, rfl, hends h⟩⟩

theorem Worker.take_advance (hq : q.Stores n ys) (hw : w.inHand = none) :
    ∃ zs, (w.take q).2.Stores n zs ∧
      Worker.Advance cancelled q ys w none (w.take q).1 (w.take q).2 zs := by
  rw [Worker.take]
  rcases hq.take_cases with ⟨-, ht⟩ | ⟨f, zs, r, hcons, ht, hc, hs⟩
  · rw [ht]
    exact ⟨ys, hq, .look hw rfl rfl nofun nofun⟩
  · rw [ht]
    refine ⟨zs, hs, ⟨?_, rfl, ?_, hc, nofun, nofun⟩⟩
    · rw [hw, hcons]
      rfl
    · rw [hcons]
      exact List.suffix_cons f zs

/-- All that a turn of the worker can do. -/
theorem Worker.turn_advance (hq : q.Stores n ys) (w : Worker) (threshold : Nat)
    (verdict : Verdict) (cancelled : Bool) :
    ∃ zs, (w.turn threshold verdict cancelled q).2.1.Stores n zs ∧
      Worker.Advance cancelled q ys w (w.handles threshold verdict q)
        (w.turn threshold verdict cancelled q).1 (w.turn threshold verdict cancelled q).2.1 zs := by
  obtain ⟨phase, tally⟩ := w
  cases phase with
  | poised =>
    cases cancelled with
    | true => exact ⟨ys, hq, .look rfl rfl rfl nofun fun _ => .inr (.inl rfl)⟩
    | false => exact ⟨ys, hq, .look rfl rfl rfl nofun nofun⟩
  | askClosed =>
    rw [Worker.turn]
    cases hc : q.closed with
    | true => exact ⟨ys, hq, .look rfl rfl rfl (fun _ => hc) nofun⟩
    | false => exact ⟨ys, hq, .look rfl rfl rfl nofun nofun⟩
  | askEmpty =>
    rw [Worker.turn]
    cases hys : q.isEmpty with
    | true =>
      rw [hq.isEmpty_eq, List.isEmpty_iff] at hys
      exact ⟨ys, hq, .look rfl rfl rfl nofun fun _ => .inr (.inr ⟨rfl, hys⟩)⟩
    | false => exact ⟨ys, hq, .look rfl rfl rfl nofun nofun⟩
  | reach =>
    rw [Worker.turn]
    cases hw : q.takeWaits with
    | true => exact ⟨ys, hq, .look rfl rfl rfl nofun nofun⟩
    | false => exact Worker.take_advance hq rfl
  | wake => exact Worker.take_advance hq rfl
  | holding f =>
    exact ⟨ys, hq, rfl, Tally.total_count _ _, List.suffix_refl _, rfl, nofun, nofun⟩
  | finished => exact ⟨ys, hq, .look rfl rfl rfl nofun fun _ => .inl rfl⟩

/-! ## A shift -/

namespace Shift

variable {t : List Move} {l : Move} {s s' : Shift} {c c' : Crowd Frame}

/-- What holds after the history `t` of a shift that began with `xs` in the queue, while `ys` is
stored, if nobody else has taken frames out. -/
structure Ledger (xs : List Frame) (t : List Move) (s : Shift) (ys : List Frame) : Prop where
  frames : (handled t).map Prod.fst ++ (s.worker.inHand.toList ++ ys) = xs ++ accepted t
  total : s.worker.tally.total = (handled t).length
  asks : s.worker.phase = .askEmpty → s.crowd.queue.closed = true
  ends : s.worker.finishes = true → s.cancelled = true ∨ (s.crowd.queue.closed = true ∧ ys = [])

theorem Ledger.cancel (hl : Ledger xs t s ys) :
    Ledger xs (t ++ [.cancel]) { s with cancelled := true } ys := by
  refine ⟨?_, ?_, hl.asks, ?_⟩
  · rw [handled_snoc, accepted_snoc]
    simpa [Move.handled?, Move.stored?, Move.other?] using hl.frames
  · rw [handled_snoc]
    simpa [Move.handled?] using hl.total
  · intro _
    exact .inl rfl

theorem Ledger.others {e : Nat × Crowd.Deed Frame} {c : Crowd Frame} (hl : Ledger xs t s ys)
    (h : Crowd.Step s.crowd e c) (hq : s.crowd.queue.Stores n ys) (hlost : e.2.taken? = none) :
    ∃ zs, c.queue.Stores n zs ∧ Ledger xs (t ++ [.others e]) { s with crowd := c } zs := by
  obtain ⟨i, d⟩ := e
  obtain ⟨zs, hs, hz⟩ := h.contents hq
  have hzs : zs = ys ++ d.stored?.toList := by
    have hlost : d.taken? = none := hlost
    rw [hz, hlost]
    rfl
  refine ⟨zs, hs, ⟨?_, ?_, ?_, ?_⟩⟩
  · calc
      (handled (t ++ [.others (i, d)])).map Prod.fst ++ (s.worker.inHand.toList ++ zs)
      _ = (handled t).map Prod.fst ++ (s.worker.inHand.toList ++ ys) ++ d.stored?.toList := by
        rw [handled_snoc, hzs]
        simp [Move.handled?]
      _ = xs ++ accepted (t ++ [.others (i, d)]) := by
        rw [hl.frames, accepted_snoc, List.append_assoc]
        rfl
  · rw [handled_snoc]
    simpa [Move.handled?] using hl.total
  · intro hw
    exact (h.of_closed hq (hl.asks hw)).1
  · intro hw
    rcases hl.ends hw with hc | ⟨hc, hnil⟩
    · exact .inl hc
    · -- the queue was closed before it was found empty, so nothing can have been stored since
      obtain ⟨hc', hd⟩ := h.of_closed hq hc
      refine .inr ⟨hc', ?_⟩
      rw [hzs, hnil, hd]
      rfl

theorem Ledger.turn (hl : Ledger xs t s ys) (hq : s.crowd.queue.Stores n ys) :
    ∃ zs, (s.work threshold renderer).crowd.queue.Stores n zs ∧
      Ledger xs (t ++ [.turn (s.handles threshold renderer)]) (s.work threshold renderer) zs := by
  obtain ⟨zs, hs, ha⟩ := Worker.turn_advance hq s.worker threshold
    (renderer s.worker.tally.total) s.cancelled
  refine ⟨zs, hs, ⟨?_, ?_, ha.asks, ?_⟩⟩
  · calc
      (handled (t ++ [.turn (s.handles threshold renderer)])).map Prod.fst ++
          ((s.work threshold renderer).worker.inHand.toList ++ zs)
      _ = (handled t).map Prod.fst ++ (s.worker.inHand.toList ++ ys) := by
        rw [ha.frames, handled_snoc, List.map_append, List.append_assoc]
        rfl
      _ = xs ++ accepted (t ++ [.turn (s.handles threshold renderer)]) := by
        rw [hl.frames, accepted_snoc, Move.stored?, Move.other?]
        simp
  · rw [handled_snoc, List.length_append, ← hl.total]
    exact ha.total
  · intro hw
    obtain ⟨rfl, -, hends⟩ := ha.ends hw
    rcases hends with hw' | hc | ⟨hph, hnil⟩
    · rcases hl.ends hw' with hc | ⟨hc, hnil⟩
      · exact .inl hc
      · exact .inr ⟨ha.closed.trans hc, hnil⟩
    · exact .inl hc
    · -- the worker has just found the queue empty, and it was closed when the worker asked before
      exact .inr ⟨ha.closed.trans (hl.asks hph), hnil⟩

theorem Step.ledger (h : Step threshold renderer s l s') (hq : s.crowd.queue.Stores n ys)
    (hl : Ledger xs t s ys) (hlost : l.lost? = none) :
    ∃ zs, s'.crowd.queue.Stores n zs ∧ Ledger xs (t ++ [l]) s' zs := by
  cases h with
  | others h => exact hl.others h hq hlost
  | cancel => exact ⟨ys, hq, hl.cancel⟩
  | turn => exact hl.turn hq

theorem ledger_of_run {c : Crowd Frame} (hq : c.queue.Stores n xs)
    (h : Run (Step threshold renderer) { crowd := c } t s) (hlost : ∀ l ∈ t, l.lost? = none) :
    ∃ ys, s.crowd.queue.Stores n ys ∧ Ledger xs t s ys := by
  induction h with
  | start =>
    refine ⟨xs, hq, ?_, rfl, nofun, nofun⟩
    simp [Worker.inHand, handled, accepted, others, Crowd.pushes]
  | @next t b s l _ hs ih =>
    obtain ⟨ys, hb, hl⟩ := ih fun l hl => hlost l (List.mem_append_left _ hl)
    exact hs.ledger hb hl (hlost l (by simp))

/-- A worker that has come to its end by itself leaves nothing behind. -/
theorem Ledger.drained (hl : Ledger xs t s ys) (hfinishes : s.worker.finishes = true)
    (hcancelled : s.cancelled = false) :
    s.crowd.queue.closed = true ∧ ys = [] ∧ (handled t).map Prod.fst = xs ++ accepted t := by
  have hhand : s.worker.inHand = none := by
    unfold Worker.finishes at hfinishes
    unfold Worker.inHand
    split at hfinishes
    · rename_i hph
      rw [hph]
    · cases hfinishes
  have hframes := hl.frames
  rcases hl.ends hfinishes with hyes | ⟨hclosed, rfl⟩
  · exact absurd (hcancelled.symm.trans hyes) (by decide)
  · rw [hhand, Option.toList_none, List.append_nil, List.append_nil] at hframes
    exact ⟨hclosed, rfl, hframes⟩

/-- What is closed and empty stays so, whoever comes. -/
theorem Step.of_drained (h : Step threshold renderer s l s') (hq : s.crowd.queue.Stores n [])
    (hc : s.crowd.queue.closed = true) :
    s'.crowd.queue.Stores n [] ∧ s'.crowd.queue.closed = true := by
  cases h with
  | @others e _ h =>
    obtain ⟨i, d⟩ := e
    obtain ⟨hc', hd⟩ := h.of_closed hq hc
    obtain ⟨zs, hs, hz⟩ := h.contents hq
    rw [hd] at hz
    obtain ⟨-, rfl⟩ := List.append_eq_nil_iff.mp hz.symm
    exact ⟨hs, hc'⟩
  | cancel => exact ⟨hq, hc⟩
  | turn =>
    obtain ⟨zs, hs, ha⟩ := Worker.turn_advance hq s.worker threshold
      (renderer s.worker.tally.total) s.cancelled
    obtain rfl := List.suffix_nil.mp ha.rest
    exact ⟨hs, ha.closed.trans hc⟩

/-- What a shift leaves behind that began with `xs` in the queue, when it has ended in the state `s`
with the history `t`. -/
structure Drained (threshold : Nat) (renderer : Nat → Verdict) (xs : List Frame) (t : List Move)
    (s : Shift) : Prop where
  closed : s.crowd.queue.closed = true
  empty : s.crowd.queue.toList = []
  forever : ∀ u s', Run (Step threshold renderer) s u s' →
    s'.crowd.queue.closed = true ∧ s'.crowd.queue.toList = []
  /-- What was there and what has been accepted since has been handled, in this order. -/
  handled : (handled t).map Prod.fst = xs ++ accepted t
  total : s.worker.tally.total = (Shift.handled t).length

/-- A shift during which nobody else takes frames out, and which ends though nobody has asked for
it, leaves nothing behind. It may begin at any time in the life of a queue. -/
theorem drained_of_finishes {st : Settings} {b : Built Frame} (hb : st.build Frame = .ok b)
    {m : Nat} {before : List (Nat × Crowd.Deed Frame)} {c : Crowd Frame}
    (hc : Run Crowd.Step (Crowd.start b.queue m) before c)
    (h : Run (Step threshold renderer) { crowd := c } t s) (hlost : ∀ l ∈ t, l.lost? = none)
    (hfinishes : s.worker.finishes = true) (hcancelled : s.cancelled = false) :
    Drained threshold renderer c.queue.toList t s := by
  obtain ⟨hb, -⟩ := Settings.stores_of_build hb
  obtain ⟨xs, hxs, -⟩ := Crowd.contents_of_run (s := Crowd.start b.queue m) hc hb
  obtain ⟨ys, hys, hl⟩ := ledger_of_run hxs h hlost
  obtain ⟨hclosed, rfl, hhandled⟩ := hl.drained hfinishes hcancelled
  refine ⟨hclosed, hys.toList_eq, ?_, ?_, hl.total⟩
  · intro u s' hu
    have hkept := hu.keeps (P := fun s => s.crowd.queue.Stores b.capacity [] ∧
      s.crowd.queue.closed = true) (fun _ _ _ hs hd => hs.of_drained hd.1 hd.2) ⟨hys, hclosed⟩
    exact ⟨hkept.2, hkept.1.toList_eq⟩
  · rw [hxs.toList_eq, hhandled]

/-- A shift that begins with one frame in the queue. While the worker has it in hand, another one is
stored and the queue is closed; the worker handles both. -/
theorem drained_of_two : ∃ t s, Drained 5 (fun _ _ _ => .ok ()) [.numbered 1] t s ∧
    accepted t = [.numbered 2] ∧
    handled t = [(.numbered 1, .noImage), (.numbered 2, .noImage)] := by
  have hb : ({ capacity := 3 } : Settings).build Frame = .ok ⟨_, _, _, _, _⟩ := rfl
  let q : Queue Frame := ⟨⟨#[some (.numbered 1), none, none], 0, 1⟩, false⟩
  let c : Crowd Frame := ⟨q, [.notifying .item]⟩
  have hc : Run Crowd.Step (Crowd.start (Queue.empty 3 : Queue Frame) 1) []
    (Crowd.start (Queue.empty 3) 1) := .start
  have hc := (hc.next (.ask (i := 0) (.offer (.numbered 1)) rfl)).next (.enter (i := 0) rfl rfl)
  have h : Run (Step 5 fun _ _ _ => .ok ()) { crowd := c } [] { crowd := c } := .start
  have h := ((h.next .turn).next .turn).next .turn
  -- the worker has the first frame in hand
  let t : List Move := [.turn none, .turn none, .turn none]
  have h : Run (Step 5 fun _ _ _ => .ok ()) { crowd := c } t
    ⟨⟨⟨⟨#[none, none, none], 1, 1⟩, false⟩, [.notifying .item]⟩, ⟨.holding (.numbered 1), {}⟩,
      false⟩ := h
  have h := (h.next (.others (.notifyNobody (i := 0) rfl rfl))).next
    (.others (.ask (i := 0) (.offer (.numbered 2)) rfl))
  have h := (h.next (.others (.enter (i := 0) rfl rfl))).next
    (.others (.notifyNobody (i := 0) rfl rfl))
  have h := (h.next (.others (.ask (i := 0) .close rfl))).next (.others (.enter (i := 0) rfl rfl))
  -- the second frame is in the queue, and nothing more can be stored
  let q' : Queue Frame := ⟨⟨#[none, some (.numbered 2), none], 1, 2⟩, true⟩
  let t : List Move := t ++ [.others (0, .notifies), .others (0, .asks (.offer (.numbered 2))),
    .others (0, .offered (.numbered 2) .accepted), .others (0, .notifies),
    .others (0, .asks .close), .others (0, .closed)]
  have h : Run (Step 5 fun _ _ _ => .ok ()) { crowd := c } t
    ⟨⟨q', [.hailing .item]⟩, ⟨.holding (.numbered 1), {}⟩, false⟩ := h
  have h := ((h.next .turn).next .turn).next .turn
  let t : List Move := t ++ [.turn (some (.numbered 1, .noImage)), .turn none, .turn none]
  have h : Run (Step 5 fun _ _ _ => .ok ()) { crowd := c } t
    ⟨⟨q', [.hailing .item]⟩, ⟨.askEmpty, { noImage := 1 }⟩, false⟩ := h
  have h := (h.next .turn).next .turn
  let t : List Move := t ++ [.turn none, .turn none]
  have h : Run (Step 5 fun _ _ _ => .ok ()) { crowd := c } t
    ⟨⟨⟨⟨#[none, none, none], 2, 2⟩, true⟩, [.hailing .item]⟩,
      ⟨.holding (.numbered 2), { noImage := 1 }⟩, false⟩ := h
  have h := (((h.next .turn).next .turn).next .turn).next .turn
  refine ⟨_, _, drained_of_finishes hb hc h ?_ rfl rfl, rfl, rfl⟩
  intro l hl
  exact Option.isNone_iff_eq_none.mp (List.all_eq_true (p := fun l => l.lost?.isNone).mp rfl l hl)

end Shift

end SheddingQueue
