import SheddingQueue.Proofs.Build
import SheddingQueue.Proofs.Demo.Record

/-!
# Both threads come to an end

When the threads take turns in rounds, the worker handles each frame in the round in which the feed
has stored it. After the last frame one round suffices to close the queue and to stop the worker.
Whatever the settings are, `rounds` is an order in which both threads finish.
-/

namespace SheddingQueue.Demo

variable {d : State} {w w' : Feed} {p p' : Worker.Phase} {q q' : Queue Frame} {n : Nat} {f : Frame}
  {fs : List Frame}

/-- Where the threads are. What they have counted and reported does not matter for their next
turns. -/
structure Stands (d : State) (w : Feed) (p : Worker.Phase) (q : Queue Frame) : Prop where
  feed : d.feed = w
  phase : d.worker.phase = p
  queue : d.queue = q
  cancelled : d.cancelled = false

namespace Stands

variable {stage : Stage}

theorem feed_turn {events : List Event} (h : Stands d w p q)
    (hturn : w.turn stage.plan q = (w', q', events)) : Stands (d.turn stage .feed) w' p q' := by
  obtain ⟨rfl, hphase, rfl, hcancelled⟩ := h
  exact ⟨congrArg Prod.fst hturn, hphase, congrArg (·.2.1) hturn, hcancelled⟩

theorem worker_turn (h : Stands d w p q)
    (hphase : ∀ tally, (Worker.turn stage.threshold stage.verdict false q ⟨p, tally⟩).1.phase = p')
    (hqueue : ∀ tally, (Worker.turn stage.threshold stage.verdict false q ⟨p, tally⟩).2.1 = q') :
    Stands (d.turn stage .worker) w p' q' := by
  obtain ⟨queue, feed, ⟨phase, tally⟩, cancelled, journal⟩ := d
  obtain ⟨rfl, rfl, rfl, rfl⟩ := h
  exact ⟨rfl, hphase tally, hqueue tally, rfl⟩

/-! ## Two turns of the worker -/

/-- The worker sees that there will be more. -/
theorem look (h : Stands d w .poised q) (stage : Stage) (hopen : q.closed = false) :
    Stands ((d.turn stage .worker).turn stage .worker) w .reach q := by
  have h : Stands (d.turn stage .worker) w .askClosed q :=
    h.worker_turn (fun _ => rfl) fun _ => rfl
  exact h.worker_turn (fun _ => by simp [Worker.turn, hopen]) fun _ => rfl

theorem grab (h : Stands d w .reach q) (stage : Stage) (hq : q.Stores n (f :: fs)) :
    ∃ q', Stands ((d.turn stage .worker).turn stage .worker) w .poised q' ∧ q'.Stores n fs ∧
      q'.closed = q.closed := by
  have hwaits : q.takeWaits = false := by
    rw [Bool.eq_false_iff, Ne, hq.takeWaits_iff]
    nofun
  rcases hq.take_cases with ⟨hnil, -⟩ | ⟨g, gs, q', hcons, ht, hc, hs⟩
  · cases hnil
  · obtain ⟨rfl, rfl⟩ := List.cons.inj hcons
    have h : Stands (d.turn stage .worker) w (.holding f) q' :=
      h.worker_turn (fun _ => by simp [Worker.turn, Worker.take, hwaits, ht])
        fun _ => by simp [Worker.turn, Worker.take, hwaits, ht]
    exact ⟨q', h.worker_turn (fun _ => rfl) (fun _ => rfl), hs, hc⟩

/-- The worker sleeps and wakes up in vain. -/
theorem idle (h : Stands d w .reach q) (stage : Stage) (hq : q.Stores n [])
    (hopen : q.closed = false) :
    Stands ((d.turn stage .worker).turn stage .worker) w .poised q := by
  have hwaits : q.takeWaits = true := hq.takeWaits_iff.mpr ⟨rfl, hopen⟩
  rcases hq.take_cases with ⟨-, ht⟩ | ⟨g, gs, q', hcons, -⟩
  · have h : Stands (d.turn stage .worker) w .wake q :=
      h.worker_turn (fun _ => by simp [Worker.turn, hwaits]) fun _ => by simp [Worker.turn, hwaits]
    exact h.worker_turn (fun _ => by simp [Worker.turn, Worker.take, ht])
      fun _ => by simp [Worker.turn, Worker.take, ht]
  · cases hcons

/-! ## A round -/

/-- In a round the worker handles the frame that is stored, and is where it can begin the next
one. -/
theorem handles_one (h : Stands d w p q) (hp : p = .poised ∨ p = .reach) (hq : q.Stores n [f])
    (hopen : q.closed = false) :
    ∃ p' q', Stands (play stage d (List.replicate 6 .worker)) w p' q' ∧
      (p' = .poised ∨ p' = .reach) ∧ q'.Stores n [] ∧ q'.closed = false := by
  rcases hp with rfl | rfl
  · obtain ⟨q', h, hq', hc⟩ := (h.look stage hopen).grab stage hq
    exact ⟨.reach, q', h.look stage (hc.trans hopen), .inr rfl, hq', hc.trans hopen⟩
  · obtain ⟨q', h, hq', hc⟩ := h.grab stage hq
    have h := h.look stage (hc.trans hopen)
    exact ⟨.poised, q', h.idle stage hq' (hc.trans hopen), .inl rfl, hq', hc.trans hopen⟩

/-- Once the queue is closed and empty, the worker stops. -/
theorem stops (h : Stands d w p q) (hp : p = .poised ∨ p = .reach) (hq : q.Stores n [])
    (hclosed : q.closed = true) :
    Stands (play stage d (List.replicate 6 .worker)) w .finished q := by
  have hempty : q.isEmpty = true := by rw [hq.isEmpty_eq]; rfl
  have stop {d : State} (h : Stands d w .poised q) :
      Stands (play stage d (List.replicate 3 .worker)) w .finished q := by
    have h : Stands (d.turn stage .worker) w .askClosed q :=
      h.worker_turn (fun _ => rfl) fun _ => rfl
    have h : Stands ((d.turn stage .worker).turn stage .worker) w .askEmpty q :=
      h.worker_turn (fun _ => by simp [Worker.turn, hclosed]) fun _ => rfl
    exact h.worker_turn (fun _ => by simp [Worker.turn, hempty, Worker.finish])
      fun _ => by simp [Worker.turn, hempty]
  have stay {d : State} (h : Stands d w .finished q) :
      Stands (d.turn stage .worker) w .finished q :=
    h.worker_turn (fun _ => rfl) fun _ => rfl
  rcases hp with rfl | rfl
  · exact stay (stay (stay (stop h)))
  · have hwaits : q.takeWaits = false := by
      rw [Bool.eq_false_iff, Ne, hq.takeWaits_iff, hclosed]
      simp
    rcases hq.take_cases with ⟨-, ht⟩ | ⟨g, gs, q', hcons, -⟩
    · have h : Stands (d.turn stage .worker) w .poised q :=
        h.worker_turn (fun _ => by simp [Worker.turn, Worker.take, hwaits, ht])
          fun _ => by simp [Worker.turn, Worker.take, hwaits, ht]
      exact stay (stay (stop h))
    · cases hcons

end Stands

variable {b : Built Frame} {k last : Nat}

/-- Where the threads are before the round for the frame with number `k + 1`. -/
def Rested (b : Built Frame) (k : Nat) (d : State) : Prop :=
  ∃ w p q, Stands d w p q ∧ w.phase = .poised ∧ w.next = k + 1 ∧
    (p = .poised ∨ p = .reach) ∧ q.Stores b.capacity [] ∧ q.closed = false

/-- The feed makes a frame and stores it. -/
theorem Rested.stored (h : Rested b k d) (hk : k < last) (hlast : last < UInt64.size)
    (hcapacity : 2 ≤ b.capacity) :
    ∃ w p q, Stands (play (stage b last) d (List.replicate 2 .feed)) w p q ∧ w.phase = .poised ∧
      w.next = k + 2 ∧ (p = .poised ∨ p = .reach) ∧ q.Stores b.capacity [frame (k + 1)] ∧
      q.closed = false := by
  obtain ⟨⟨phase, next, accepted, dropped⟩, p, q, h, rfl, rfl, hp, hq, hopen⟩ := h
  have hlt : k + 1 < UInt64.size := Nat.lt_of_le_of_lt hk hlast
  have hmade : Feed.turn (stage b last).plan q ⟨.poised, k + 1, accepted, dropped⟩ =
      (⟨.reach (frame (k + 1)), k + 2, accepted, dropped⟩, q, []) := by
    simp [Feed.turn, stage, Nat.not_lt.mpr (Nat.succ_le_of_lt hk), Feed.advance,
      frame_of_source hlt]
  have h := h.feed_turn hmade
  rcases hq.offer_cases (frame (k + 1)) with ⟨hclosed, -⟩ | ⟨-, hlength, -⟩ | ⟨-, -, q', ho, hc, hs⟩
  · cases hopen.symm.trans hclosed
  · rw [List.length_nil] at hlength
    omega
  · have hawake : Feed.sleeps b.policy q = false := by
      cases b.policy with
      | drop => rfl
      | retry interval =>
        rw [Feed.sleeps, Bool.eq_false_iff, Ne, hq.offerWaits_iff, List.length_nil]
        omega
    have hstored :
        Feed.turn (stage b last).plan q ⟨.reach (frame (k + 1)), k + 2, accepted, dropped⟩ =
          (⟨.poised, k + 2, accepted + 1, dropped⟩, q',
            Producer.report (frame (k + 1)).seq .accepted) := by
      simp only [Feed.turn, stage, hawake, Bool.false_eq_true, if_false, Feed.offer, ho]
      cases b.policy <;> rfl
    have h := h.feed_turn hstored
    exact ⟨_, _, _, h, rfl, rfl, hp, hs, hc⟩

theorem play_append (stage : Stage) (d : State) (order more : List Thread) :
    play stage d (order ++ more) = play stage (play stage d order) more := List.foldl_append

theorem Rested.next (h : Rested b k d) (hk : k < last) (hlast : last < UInt64.size)
    (hcapacity : 2 ≤ b.capacity) : Rested b (k + 1) (play (stage b last) d round) := by
  obtain ⟨w, p, q, h, hw, hnext, hp, hq, hopen⟩ := h.stored hk hlast hcapacity
  obtain ⟨p', q', h, hp', hq', hopen'⟩ := h.handles_one hp hq hopen
  rw [round, play_append]
  exact ⟨w, p', q', h, hw, hnext, hp', hq', hopen'⟩

/-- After the last frame the feed closes the queue, and the worker stops. -/
theorem Rested.finishes (h : Rested b last d) :
    (play (stage b last) d round).finishes = true := by
  obtain ⟨⟨phase, next, accepted, dropped⟩, p, q, h, rfl, rfl, hp, hq, -⟩ := h
  have hclose : Feed.turn (stage b last).plan q ⟨.poised, last + 1, accepted, dropped⟩ =
      (⟨.finished, last + 1, accepted, dropped⟩, q.close, []) := by
    simp [Feed.turn, stage]
  have hrest : Feed.turn (stage b last).plan q.close ⟨.finished, last + 1, accepted, dropped⟩ =
    (⟨.finished, last + 1, accepted, dropped⟩, q.close, []) := rfl
  have h : Stands (play (stage b last) d (List.replicate 2 .feed)) _ p q.close :=
    (h.feed_turn hclose).feed_turn hrest
  have h : Stands (play (stage b last) (play (stage b last) d (List.replicate 2 .feed))
      (List.replicate 6 .worker)) _ .finished q.close := h.stops hp hq.close rfl
  rw [round, play_append, State.finishes, Feed.finishes, Worker.finishes, h.feed, h.phase]
  rfl

theorem finishes_turn (h : d.finishes = true) (stage : Stage) (th : Thread) :
    (d.turn stage th).finishes = true := by
  obtain ⟨queue, ⟨feed, next, accepted, dropped⟩, ⟨phase, tally⟩, cancelled, journal⟩ := d
  rw [State.finishes, Bool.and_eq_true] at h
  cases feed with
  | finished =>
    cases phase with
    | finished => cases th <;> rfl
    | _ => cases h.2
  | _ => cases h.1

/-- Threads that have finished stay where they are. -/
theorem finishes_play (h : d.finishes = true) (stage : Stage) (order : List Thread) :
    (play stage d order).finishes = true := by
  induction order generalizing d with
  | nil => exact h
  | cons th order ih => exact ih (finishes_turn h stage th)

/-- Both threads finish in rounds. -/
theorem finishes_rounds {st : Settings} (hb : st.build Frame = .ok b) (last : UInt64) :
    (play (stage b last.toNat) { queue := b.queue } (rounds last.toNat)).finishes = true := by
  obtain ⟨hq, hopen⟩ := Settings.stores_of_build hb
  obtain ⟨hcapacity, -⟩ := Settings.capacity_of_build hb
  have hlast := last.toNat_lt_size
  generalize last.toNat = last at hlast ⊢
  have rested (k : Nat) (hk : k ≤ last) :
      Rested b k (play (stage b last) { queue := b.queue } (List.replicate k round).flatten) := by
    induction k with
    | zero => exact ⟨_, _, _, ⟨rfl, rfl, rfl, rfl⟩, rfl, rfl, .inl rfl, hq, hopen⟩
    | succ k ih =>
      have h := (ih (Nat.le_of_lt hk)).next hk hlast hcapacity
      rwa [← play_append, ← List.flatten_concat, ← List.replicate_succ'] at h
  have hrounds : rounds last = (List.replicate last round).flatten ++ round ++ round := by
    rw [rounds, List.replicate_succ', List.flatten_concat, List.replicate_succ',
      List.flatten_concat]
  rw [hrounds, play_append, play_append]
  exact finishes_play (rested last (Nat.le_refl last)).finishes _ round

end SheddingQueue.Demo
