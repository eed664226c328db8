import SheddingQueue.Proofs.Build
import SheddingQueue.Proofs.Producer.Attempts
import SheddingQueue.Proofs.Session.Deals

/-!
# The queue of a session stays intact

A queue is intact if its slots are those of a ring that holds some items in order. Every operation
of a session keeps it so, also one that fills or drains the queue or needs two threads at work:
`Session.intact_next` says this for one operation, `Session.intact_after` for any number of them.
-/

namespace SheddingQueue

variable {n : Nat}

namespace Queue

variable {α : Type} {q : Queue α}

/-- A queue of `n` slots with some items in order. -/
def Intact (n : Nat) (q : Queue α) : Prop := ∃ xs, q.Stores n xs

namespace Intact

theorem stores (h : q.Intact n) : q.Stores n q.toList := by
  obtain ⟨xs, hxs⟩ := h
  rwa [hxs.toList_eq]

theorem offer (h : q.Intact n) (x : α) : (q.offer x).2.Intact n := by
  obtain ⟨xs, hxs⟩ := h
  rcases hxs.offer_cases x with ⟨-, ho⟩ | ⟨-, -, ho⟩ | ⟨-, -, r, ho, -, hr⟩ <;> rw [ho]
  · exact ⟨xs, hxs⟩
  · exact ⟨xs, hxs⟩
  · exact ⟨xs ++ [x], hr⟩

theorem take (h : q.Intact n) : q.take.2.Intact n := by
  obtain ⟨xs, hxs⟩ := h
  rcases hxs.take_cases with ⟨-, ht⟩ | ⟨x, ys, r, -, ht, -, hr⟩ <;> rw [ht]
  · exact ⟨xs, hxs⟩
  · exact ⟨ys, hr⟩

theorem close (h : q.Intact n) : q.close.Intact n := by
  obtain ⟨xs, hxs⟩ := h
  exact ⟨xs, hxs.close⟩

/-- A take that finds nothing leaves the queue as it is, up to the slots and indices. -/
theorem eq_of_take_none (h : q.Intact n) {after : Queue α} (ht : q.take = (none, after)) :
    after = q := by
  obtain ⟨xs, hxs⟩ := h
  rcases hxs.take_cases with ⟨-, ht'⟩ | ⟨x, ys, r, -, ht', -, -⟩ <;> cases ht'.symm.trans ht
  rfl

end Intact

end Queue

/-! ## Producers -/

namespace Producer

variable {f : Frame} {q : Queue Frame} {others : List Others} {r : Result}

/-- What others do that leaves a queue intact. -/
def Others.Careful (n : Nat) (others : Others) : Prop :=
  ∀ q : Queue Frame, q.Intact n → (others.before q).Intact n ∧ (others.during q).Intact n

theorem Others.Careful.lead {others : Others} (h : others.Careful n) (hq : q.Intact n) :
    (others.lead q).Intact n := by
  have hbefore := (h q hq).1
  rw [Others.lead]
  split
  · exact (h _ hbefore).2
  · exact hbefore

theorem intact_visits (hothers : ∀ o ∈ others, o.Careful n) (hq : q.Intact n) :
    ∀ c ∈ visits f others q, c.Intact n := by
  induction others generalizing q with
  | nil =>
    intro c hc
    cases List.mem_singleton.mp hc
    exact hq
  | cons o later ih =>
    have hlead : (o.lead q).Intact n := (hothers o List.mem_cons_self).lead hq
    intro c hc
    rw [visits] at hc
    split at hc
    · rename_i after ho
      rcases List.mem_cons.mp hc with rfl | hc
      · exact hlead
      · have hafter := hlead.offer f
        rw [ho] at hafter
        exact ih (fun o' ho' => hothers o' (List.mem_cons_of_mem o ho')) hafter c hc
    · cases List.mem_singleton.mp hc
      exact hlead

theorem intact_enqueue {policy : Policy} (hothers : ∀ o ∈ others, o.Careful n) (hq : q.Intact n)
    (h : enqueue policy others q f = some r) : r.queue.Intact n := by
  cases policy with
  | drop =>
    cases h
    exact hq.offer f
  | retry =>
    obtain ⟨earlier, last, hvisits, hsettles⟩ := retry_settles h
    have hmem : last ∈ visits f others q :=
      hvisits ▸ List.mem_append_right _ (List.mem_singleton_self last)
    obtain ⟨xs, hlast⟩ : last.Intact n := intact_visits hothers hq last hmem
    rcases hsettles.decided with ⟨-, -, hstored⟩ | ⟨-, -, hsame⟩
    · exact ⟨xs ++ [f], hstored n xs hlast⟩
    · exact hsame ▸ ⟨xs, hlast⟩

end Producer

/-! ## Operations -/

namespace Session

variable {q : Queue Frame}

theorem intact_fillFrom (h : q.Intact n) (first accepted count : Nat) :
    (fillFrom q first accepted count).2.2.Intact n := by
  induction count generalizing q first accepted with
  | zero => exact h
  | succ count ih =>
    have hoffer := h.offer (specimen first)
    rw [fillFrom]
    split
    · rename_i ho
      rw [ho] at hoffer
      exact ih hoffer _ _
    · rename_i ho
      rw [ho] at hoffer
      exact hoffer

theorem intact_drainFrom (h : q.Intact n) (most : Nat) : (drainFrom q most).2.Intact n := by
  induction most generalizing q with
  | zero => exact h
  | succ most ih =>
    have htake := h.take
    rw [drainFrom]
    split
    · rename_i ht
      rw [ht] at htake
      exact htake
    · rename_i ht
      rw [ht] at htake
      exact ih htake

theorem intact_release (release : Release) (h : q.Intact n) : (Release.act release q).Intact n := by
  cases release with
  | take => exact h.take
  | closeQueue | closeProducer | dropQueue => exact h.close

theorem intact_otherSide {policy : Policy} {source : Option Frame} {q' : Queue Frame}
    {events : List Event} (h : q.Intact n) (ho : otherSide policy source q = some (q', events)) :
    q'.Intact n := by
  cases source with
  | none =>
    cases ho
    exact h.close
  | some f =>
    obtain ⟨r, hr, heq⟩ := Option.map_eq_some_iff.mp ho
    cases heq
    exact Producer.intact_enqueue (List.forall_mem_nil _) h hr

theorem intact_session_enqueue {s : Session} {others : List Producer.Others}
    (hothers : ∀ o ∈ others, o.Careful n) (h : s.queue.Intact n) (f : Frame)
    (reply : Admission Frame → Reply) : (s.enqueue others f reply).2.1.queue.Intact n := by
  rw [enqueue]
  split
  · rename_i r hr
    exact Producer.intact_enqueue hothers h hr
  · exact h

theorem intact_releaseAfter (release : Release) {performed : Performed}
    (h : performed.2.1.queue.Intact n) : (releaseAfter release performed).2.1.queue.Intact n := by
  unfold releaseAfter
  split
  · exact intact_release release h
  · exact h

theorem intact_blockedEnqueue {s : Session} (h : s.queue.Intact n) (seen : Bool)
    (release : Release) (f : Frame) :
    (s.blockedEnqueue seen release f).2.1.queue.Intact n := by
  have hidle : Producer.Others.Careful n {} := fun q hq => ⟨hq, hq⟩
  have hfreed : Producer.Others.Careful n { during := Release.act release } :=
    fun q hq => ⟨hq, intact_release release hq⟩
  rw [blockedEnqueue]
  by_cases hwaits : s.enqueueWaits = true
  · rw [if_pos hwaits]
    refine intact_session_enqueue ?_ h f _
    cases seen with
    | true => simpa using ⟨hidle, hfreed⟩
    | false => simpa using hfreed
  · rw [if_neg hwaits]
    exact intact_releaseAfter release (intact_session_enqueue (List.forall_mem_nil _) h f _)

theorem intact_waitingTake {s : Session} (h : s.queue.Intact n) (source : Option Frame) :
    (s.waitingTake source).2.1.queue.Intact n := by
  rw [waitingTake]
  split
  · split
    · exact h
    · rename_i ho
      exact (intact_otherSide h ho).take
  · dsimp only
    split
    · exact h
    · rename_i ho
      exact intact_otherSide h.take ho

theorem intact_next {s : Session} (h : s.queue.Intact n) (op : Operation) :
    (s.next op).queue.Intact n := by
  by_cases hop : op.isCall = true
  · obtain ⟨xs, hxs⟩ := h
    obtain ⟨ys, hys, -⟩ := Deal.contents_of_run (s.perform_deals hop).run hxs
    exact ⟨ys, hys⟩
  · cases op with
    | fill p first count =>
      rw [next, perform, withProducer]
      split
      · exact intact_fillFrom h first 0 count
      · exact h
    | drain most =>
      rw [next, perform, withQueue]
      split
      · exact intact_drainFrom h most
      · exact h
    | blockedEnqueue p source seen release =>
      rw [next, perform, withProducer, withQueue, withFrame]
      repeat' split
      · exact intact_blockedEnqueue h seen release _
      all_goals exact h
    | waitingTake p source =>
      cases source with
      | none =>
        rw [next, perform, withQueue, withProducer]
        repeat' split
        · exact intact_waitingTake h none
        all_goals exact h
      | some source =>
        rw [next, perform, withQueue, withProducer, withFrame]
        repeat' split
        · exact intact_waitingTake h _
        all_goals exact h
    | _ => exact absurd rfl hop

theorem intact_after {s : Session} (h : s.queue.Intact n) (ops : List Operation) :
    (s.after ops).queue.Intact n := by
  induction ops generalizing s with
  | nil => exact h
  | cons op ops ih => exact ih (intact_next h op)

/-- So the queue of a session that began with a new queue has always the slots it was made with. -/
theorem stores_after_build {st : Settings} {b : Built Frame} (hb : st.build Frame = .ok b)
    (ops : List Operation) : let q := ((ofBuilt b).after ops).queue
    q.Stores b.capacity q.toList :=
  (intact_after ⟨[], (Settings.stores_of_build hb).1⟩ ops).stores

end Session

end SheddingQueue
