import SheddingQueue.Demo
import SheddingQueue.Proofs.Shift.Draining

/-!
# The demonstration is a shift

The two threads of the demonstration take turns in some order. `Feed.Advance` lists all that a turn
of the feed can do. Each of these is a few steps of a thread in a crowd, so whatever order is
played, a shift could have gone the same way, and what is known about shifts holds of what is
played.
-/

namespace SheddingQueue

variable {c c' c'' : Crowd Frame} {fs : List Frame}

/-- A crowd can get from one state to another while exactly `fs` is stored, in this order, and
nothing is taken out. -/
def Crowd.Way (c : Crowd Frame) (fs : List Frame) (c' : Crowd Frame) : Prop :=
  ∃ u, Run Crowd.Step c u c' ∧ (Crowd.pushes u).map Prod.snd = fs ∧ Crowd.taken u = []

theorem Crowd.Way.refl (c : Crowd Frame) : c.Way [] c := ⟨[], .start, rfl, rfl⟩

theorem Crowd.Way.next {i : Nat} {d : Crowd.Deed Frame} (h : c.Way fs c')
    (hs : Crowd.Step c' (i, d) c'') (hd : d.taken? = none) :
    c.Way (fs ++ d.stored?.toList) c'' := by
  obtain ⟨u, hu, hstored, hnone⟩ := h
  refine ⟨u ++ [(i, d)], hu.next hs, ?_, ?_⟩
  · rw [Crowd.pushes_snoc, List.map_append, hstored, List.map_map]
    exact congrArg (fs ++ ·) (List.map_id _)
  · rw [Crowd.taken_snoc, hnone, hd]
    rfl

namespace Feed

open Crowd (Request)

variable {plan : Plan} {q : Queue Frame} {w : Feed} {f : Frame} {r : Turned}

/-! ## A turn of the feed -/

/-- Whether a feed offers a frame in its next turn. -/
def Offers (policy : Policy) (q : Queue Frame) (w : Feed) (f : Frame) : Prop :=
  w.phase = .wake f ∨ (w.phase = .reach f ∧ sleeps policy q = false)

/-- All that can come of a turn of the feed, and the frames that are stored in it. -/
inductive Advance (plan : Plan) (q : Queue Frame) (w : Feed) : List Frame → Turned → Prop where
  | close (hw : w.phase = .poised) (hlast : plan.last < w.next) :
      Advance plan q w [] ({ w with phase := .finished }, q.close, [])
  | make {f : Frame} (hw : w.phase = .poised) (hnext : w.next ≤ plan.last)
      (hf : (plan.source w.next).frame? = .ok f) :
      Advance plan q w [] ({ w with phase := .reach f, next := w.next + 1 }, q, [])
  | skip {m : Malformed} (hw : w.phase = .poised) (hnext : w.next ≤ plan.last)
      (hm : (plan.source w.next).frame? = .error m) :
      Advance plan q w [] ({ w with next := w.next + 1 }, q, [.noted (.unreadable m.text)])
  | sleep {f : Frame} (hw : w.phase = .reach f) (hs : sleeps plan.policy q = true) :
      Advance plan q w [] ({ w with phase := .wake f }, q, [])
  | accepted {f : Frame} {q' : Queue Frame} (hw : w.Offers plan.policy q f)
      (ho : q.offer f = (.accepted, q')) :
      Advance plan q w [f] ({ w with phase := .poised, accepted := w.accepted + 1 }, q',
        Producer.report f.seq .accepted)
  | retried {f : Frame} {interval : Duration} (hw : w.Offers plan.policy q f)
      (hpolicy : plan.policy = .retry interval) (ho : q.offer f = (.refused .full f, q)) :
      Advance plan q w [] ({ w with phase := .reach f }, q, [.noted (.retrying f.seq)])
  | dropped {f : Frame} (hw : w.Offers plan.policy q f) (hpolicy : plan.policy = .drop)
      (ho : q.offer f = (.refused .full f, q)) :
      Advance plan q w [] ({ w with phase := .poised, dropped := w.dropped + 1 }, q,
        Producer.report f.seq (.refused .full f))
  | rejected {f : Frame} (hw : w.Offers plan.policy q f)
      (ho : q.offer f = (.refused .closed f, q)) :
      Advance plan q w [] ({ w with phase := .poised, next := plan.last + 1 }, q,
        Producer.report f.seq (.refused .closed f))
  | rest (hw : w.phase = .finished) : Advance plan q w [] (w, q, [])

theorem offer_advance (hw : w.Offers plan.policy q f) :
    ∃ fs, Advance plan q w fs (offer plan q w f) := by
  rcases ho : q.offer f with ⟨_ | ⟨_ | _, y⟩, q'⟩
  · have hturn : offer plan q w f = ({ w with phase := .poised, accepted := w.accepted + 1 }, q',
        Producer.report f.seq .accepted) := by
      rw [offer, ho]
      cases plan.policy <;> rfl
    exact ⟨[f], hturn ▸ .accepted hw ho⟩
  · obtain ⟨rfl, rfl⟩ := Queue.eq_of_offer_refused ho
    cases hpolicy : plan.policy with
    | drop =>
      refine ⟨[], ?_⟩
      rw [offer, hpolicy, ho]
      exact .dropped hw hpolicy ho
    | retry interval =>
      refine ⟨[], ?_⟩
      rw [offer, hpolicy, ho]
      exact .retried hw hpolicy ho
  · obtain ⟨rfl, rfl⟩ := Queue.eq_of_offer_refused ho
    have hturn : offer plan q' w y = ({ w with phase := .poised, next := plan.last + 1 }, q',
        Producer.report y.seq (.refused .closed y)) := by
      rw [offer, ho]
      cases plan.policy <;> rfl
    exact ⟨[], hturn ▸ .rejected hw ho⟩

/-- Nothing else comes of a turn. -/
theorem turn_advance (plan : Plan) (q : Queue Frame) (w : Feed) :
    ∃ fs, Advance plan q w fs (w.turn plan q) := by
  cases hw : w.phase with
  | poised =>
    rw [turn, hw]
    by_cases hlast : plan.last < w.next
    · rw [if_pos hlast]
      exact ⟨[], .close hw hlast⟩
    · have hnext : w.next ≤ plan.last := Nat.not_lt.mp hlast
      rw [if_neg hlast, advance]
      cases hf : (plan.source w.next).frame? with
      | ok f => exact ⟨[], .make hw hnext hf⟩
      | error m => exact ⟨[], .skip hw hnext hf⟩
  | reach f =>
    rw [turn, hw]
    cases hs : sleeps plan.policy q with
    | true => exact ⟨[], .sleep hw hs⟩
    | false => exact offer_advance (.inr ⟨hw, hs⟩)
  | wake f =>
    rw [turn, hw]
    exact offer_advance (.inl hw)
  | finished =>
    rw [turn, hw]
    exact ⟨[], .rest hw⟩

/-! ## The feed as a thread -/

/-- Where a feed is, as a thread of a crowd. -/
def thread (policy : Policy) (w : Feed) : Crowd.Phase Frame :=
  match w.phase with
  | .poised | .finished => .free
  | .reach f => .entering (.enqueue policy f)
  | .wake f => .parked (.enqueue policy f)

theorem sleeps_enqueue (policy : Policy) (q : Queue Frame) (f : Frame) :
    (Request.enqueue policy f).sleeps q = sleeps policy q := by
  cases policy <;> rfl

/-- A feed that offers a frame passes through the lock, if need be after waiting. -/
theorem Offers.way {policy : Policy} {p : Crowd.Passage Frame} (hw : w.Offers policy q f)
    (hp : (Request.enqueue policy f).act q = p) (hd : p.deed.taken? = none) :
    Crowd.Way ⟨q, [w.thread policy]⟩ p.deed.stored?.toList ⟨p.queue, [p.phase]⟩ := by
  have start := Crowd.Way.refl ⟨q, [w.thread policy]⟩
  subst hp
  rw [thread] at start ⊢
  rcases hw with hw | ⟨hw, hs⟩
  · rw [hw] at start ⊢
    exact (start.next (.leave (i := 0) rfl) rfl).next (.reenter (i := 0) rfl) hd
  · rw [hw] at start ⊢
    rw [← sleeps_enqueue policy q f] at hs
    exact start.next (.enter (i := 0) rfl hs) hd

/-- Whatever comes of a turn, the thread of the feed could have done it. There is nobody else in the
crowd to be woken. -/
theorem Advance.way (h : Advance plan q w fs r) :
    Crowd.Way ⟨q, [w.thread plan.policy]⟩ fs ⟨r.2.1, [r.1.thread plan.policy]⟩ := by
  have start := Crowd.Way.refl ⟨q, [w.thread plan.policy]⟩
  cases h with
  | close hw =>
    -- close the queue and wake everybody
    rw [thread, hw] at start ⊢
    have h := (start.next (.ask (i := 0) .close rfl) rfl).next (.enter (i := 0) rfl rfl) rfl
    exact (h.next (.hail (i := 0) rfl) rfl).next (.hail (i := 0) rfl) rfl
  | @make f hw =>
    rw [thread, hw] at start ⊢
    exact start.next (.ask (i := 0) (.enqueue plan.policy f) rfl) rfl
  | skip hw => exact start
  | @sleep f hw hs =>
    rw [thread, hw] at start ⊢
    rw [← sleeps_enqueue plan.policy q f] at hs
    exact start.next (.park (i := 0) rfl hs) rfl
  | @accepted f q' hw ho =>
    have hact : (Request.enqueue plan.policy f).act q =
        ⟨.offered f .accepted, .notifying .item, q'⟩ := by
      cases plan.policy <;> simp [Request.enqueue, Request.act, Request.settle, ho]
    exact (hw.way hact rfl).next (.notifyNobody (i := 0) rfl rfl) rfl
  | @retried f _ hw hpolicy ho =>
    have hact : (Request.enqueue plan.policy f).act q =
        ⟨.retried f, .entering (.persist f), q⟩ := by
      simp [hpolicy, Request.enqueue, Request.act, ho]
    rw [hpolicy] at hw hact ⊢
    exact hw.way hact rfl
  | @dropped f hw hpolicy ho =>
    have hact : (Request.enqueue plan.policy f).act q =
        ⟨.offered f (.refused .full f), .free, q⟩ := by
      simp [hpolicy, Request.enqueue, Request.act, Request.settle, ho]
    exact hw.way hact rfl
  | @rejected f hw ho =>
    have hact : (Request.enqueue plan.policy f).act q =
        ⟨.offered f (.refused .closed f), .free, q⟩ := by
      cases plan.policy <;> simp [Request.enqueue, Request.act, Request.settle, ho]
    exact hw.way hact rfl
  | rest => exact start

end Feed

/-! ## Both threads -/

namespace Demo

variable {stage : Stage} {d : State}

def State.shift (stage : Stage) (d : State) : Shift :=
  ⟨⟨d.queue, [d.feed.thread stage.plan.policy]⟩, d.worker, d.cancelled⟩

/-- A turn of the feed is some steps of the others, in which it stores what it says. -/
theorem feed_shift (stage : Stage) (d : State)
    (h : Feed.Advance stage.plan d.queue d.feed fs (d.feed.turn stage.plan d.queue)) :
    ∃ t, Run (Shift.Step stage.threshold fun _ => stage.verdict) (d.shift stage) t
        ((d.turn stage .feed).shift stage) ∧
      Shift.accepted t = fs ∧ Shift.handled t = [] ∧ ∀ l ∈ t, l.lost? = none := by
  obtain ⟨u, hu, hstored, hnone⟩ := h.way
  refine ⟨u.map .others, Shift.others_run hu _ _ _ _, ?_, ?_, ?_⟩
  · rw [Shift.accepted, Shift.others_map, hstored]
  · rw [Shift.handled, List.filterMap_map]
    exact List.filterMap_eq_nil_iff.mpr fun _ _ => rfl
  · intro l hl
    obtain ⟨e, he, rfl⟩ := List.mem_map.mp hl
    exact List.filterMap_eq_nil_iff.mp hnone e he

/-- A turn of the worker is one. -/
theorem worker_shift (stage : Stage) (d : State) :
    Shift.Step stage.threshold (fun _ => stage.verdict) (d.shift stage)
      (.turn (d.worker.handles stage.threshold stage.verdict d.queue))
      ((d.turn stage .worker).shift stage) := .turn

end Demo

end SheddingQueue
