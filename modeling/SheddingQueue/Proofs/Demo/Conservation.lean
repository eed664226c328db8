import SheddingQueue.Proofs.Demo.Record

/-!
# No frame of the demonstration is lost

Which frames are dropped, shed or rendered depends on the order of the turns. What does not depend
on it is read off the record here: every message can be read, no frame comes to a closed queue, and
when both threads have finished, each frame that was to be made has been dropped or accepted, and
each accepted one has been handled, in order.
-/

namespace SheddingQueue.Demo

variable {b : Built Frame} {last : Nat} {t : List Shift.Move} {d : State}

/-- What can be seen of the demonstration at any time. -/
structure Orderly (d : State) : Prop where
  /-- No message was unreadable, and no frame was refused by a closed queue. -/
  smooth : (notices d.events).any Notice.isTrouble = false
  accepted : increments .enqueued d.events = d.feed.accepted
  dropped : increments .dropped d.events = d.feed.dropped
  /-- Frames are handled by increasing numbers. -/
  increasing : ∃ ns : List UInt64, handledSeqs d.events = ns.map some ∧ ns.Pairwise (· < ·)

/-- What has become of the frames from one to `last`. -/
structure Conserved (policy : Policy) (last : Nat) (d : State) : Prop where
  fed : last = d.feed.accepted + d.feed.dropped
  handled : d.feed.accepted = d.worker.tally.rendered + d.worker.tally.shed +
    d.worker.tally.noImage + d.worker.tally.failed
  patient : ∀ interval, policy = .retry interval → d.feed.dropped = 0

/-- The frames that have been handled are some of those that have been settled. -/
theorem Record.numbers (h : Record b last t d) (hq : b.queue.Stores b.capacity []) :
    ∃ ks : List Nat, ks.Sublist (List.range' 1 d.feed.settled) ∧
      (Shift.handled t).map Prod.fst = ks.map frame := by
  obtain ⟨ys, -, hl, -⟩ := h.contents hq
  obtain ⟨ks, hks, hstored⟩ := h.feed.numbers
  have hframes := hl.frames
  rw [List.nil_append, hstored] at hframes
  obtain ⟨handled, waiting, rfl, hhandled, -⟩ := List.map_eq_append_iff.mp hframes.symm
  exact ⟨handled, (List.sublist_append_left handled waiting).trans hks, hhandled.symm⟩

theorem Record.handledSeqs_eq (h : Record b last t d) {ks : List Nat}
    (hks : (Shift.handled t).map Prod.fst = ks.map frame) :
    handledSeqs d.events = ks.map fun k => some (UInt64.ofNat k) := by
  have hseqs := congrArg (List.map Frame.seq) hks
  rw [List.map_map, List.map_map] at hseqs
  exact h.tells.handled.trans hseqs

/-- Numbers of 64 bits are in the order of their values. -/
theorem pairwise_ofNat {ks : List Nat} {n : Nat} (hks : ks.Sublist (List.range' 1 n))
    (hn : n < UInt64.size) : (ks.map UInt64.ofNat).Pairwise (· < ·) := by
  have hlt : ∀ k ∈ ks, k < UInt64.size := by
    intro k hk
    have hk := List.mem_range'_1.mp (hks.subset hk)
    omega
  rw [List.pairwise_map]
  refine ((List.pairwise_lt_range' 1).sublist hks).imp_of_mem ?_
  intro i k hi hk hik
  rw [UInt64.lt_iff_toNat_lt, UInt64.toNat_ofNat_of_lt' (hlt i hi),
    UInt64.toNat_ofNat_of_lt' (hlt k hk)]
  exact hik

theorem Record.orderly (h : Record b last t d) (hq : b.queue.Stores b.capacity [])
    (hlast : last < UInt64.size) : Orderly d := by
  obtain ⟨ks, hks, hhandled⟩ := h.numbers hq
  have hsettled : d.feed.settled < UInt64.size := Nat.lt_of_le_of_lt h.feed.settled_le hlast
  refine ⟨h.tells.smooth, h.tells.accepted, h.tells.dropped, ks.map UInt64.ofNat, ?_,
    pairwise_ofNat hks hsettled⟩
  rw [h.handledSeqs_eq hhandled, List.map_map]
  rfl

/-- When both threads have finished, all frames have been settled, and the accepted ones have been
handled. -/
theorem Record.finished (h : Record b last t d) (hq : b.queue.Stores b.capacity [])
    (hfinishes : d.finishes = true) :
    d.feed.settled = last ∧ (Shift.handled t).length = d.feed.accepted := by
  obtain ⟨ys, -, hl, -⟩ := h.contents hq
  rw [State.finishes, Bool.and_eq_true] at hfinishes
  obtain ⟨hfeed, hworker⟩ := hfinishes
  obtain ⟨-, -, hhandled⟩ := hl.drained hworker h.cancelled
  constructor
  · have hnext := h.feed.next
    unfold Feed.finishes at hfeed
    split at hfeed
    · rename_i hphase
      rwa [hphase] at hnext
    · cases hfeed
  · rw [h.feed.accepted, ← List.length_map Prod.fst, hhandled]
    rfl

theorem Record.conserved (h : Record b last t d) (hq : b.queue.Stores b.capacity [])
    (hfinishes : d.finishes = true) : Conserved b.policy last d := by
  obtain ⟨ys, -, hl, -⟩ := h.contents hq
  obtain ⟨hsettled, hlength⟩ := h.finished hq hfinishes
  refine ⟨hsettled.symm, hlength.symm.trans hl.total.symm, ?_⟩
  intro interval hpolicy
  rcases Nat.eq_zero_or_pos d.feed.dropped with hzero | hpos
  · exact hzero
  · obtain ⟨hdrop, -⟩ := h.dropped hpos
    cases hpolicy.symm.trans hdrop

/-- Whatever the settings, the number of frames and the order of the turns are, frames are handled
in order and without trouble, and in the end all of them are accounted for. -/
theorem conservation {st : Settings} (hb : st.build Frame = .ok b) (last : UInt64)
    (order : List Thread) :
    let d := play (stage b last.toNat) { queue := b.queue } order
    Orderly d ∧ (d.finishes = true → Conserved b.policy last.toNat d) := by
  obtain ⟨hq, -⟩ := Settings.stores_of_build hb
  obtain ⟨t, h⟩ := record_of_play hb last.toNat_lt_size order
  exact ⟨h.orderly hq last.toNat_lt_size, h.conserved hq⟩

/-! ## A run with few slots -/

/-- The stage with the frames in place of the messages that describe them. -/
def framed (b : Built Frame) (last : Nat) : Stage :=
  ⟨⟨b.policy, fun n => .frame (frame n), last⟩, b.watch.threshold, verdict⟩

theorem turn_framed (hlast : last < UInt64.size) (d : State) (th : Thread) :
    d.turn (framed b last) th = d.turn (stage b last) th := by
  cases th with
  | worker => rfl
  | feed =>
    have hturn :
        d.feed.turn (framed b last).plan d.queue = d.feed.turn (stage b last).plan d.queue := by
      obtain ⟨phase, next, accepted, dropped⟩ := d.feed
      cases phase with
      | poised =>
        by_cases hnext : last < next
        · simp [Feed.turn, framed, stage, hnext]
        · have hsize : next < UInt64.size := Nat.lt_of_le_of_lt (Nat.not_lt.mp hnext) hlast
          have hmade : (Source.frame (frame next)).frame? = (source next).frame? :=
            (frame_of_source hsize).symm
          simp only [Feed.turn, framed, stage, hnext, if_false, Feed.advance, hmade]
      | _ => rfl
    rw [State.turn, State.turn, hturn]

/-- To run the demonstration, no message has to be read. -/
theorem play_framed (hlast : last < UInt64.size) (d : State) (order : List Thread) :
    play (framed b last) d order = play (stage b last) d order := by
  induction order generalizing d with
  | nil => rfl
  | cons th order ih =>
    show play (framed b last) (d.turn (framed b last) th) order = _
    rw [turn_framed hlast, ih]
    rfl

/-- The first frame fills the queue and the next ones find no room. While the worker has the first
one in hand, the last one is stored. -/
def crowded : List Thread :=
  List.replicate 38 .feed ++ List.replicate 3 .worker ++ List.replicate 3 .feed ++
    List.replicate 9 .worker

/-- With two slots, eighteen of twenty frames are dropped and one is shed. -/
theorem conservation_of_crowded : ∃ b, ({ capacity := 2 } : Settings).build Frame = .ok b ∧
    let d := play (stage b 20) { queue := b.queue } crowded
    d.finishes = true ∧ d.feed.dropped = 18 ∧ d.worker.tally = { shed := 1, noImage := 1 } ∧
      Orderly d ∧ Conserved b.policy 20 d := by
  have hb : ({ capacity := 2 } : Settings).build Frame = .ok ⟨_, _, _, _, _⟩ := rfl
  refine ⟨_, hb, ?_⟩
  intro d
  have hd : d = play (framed _ 20) _ crowded := (play_framed (by decide) _ crowded).symm
  have hfinishes : d.finishes = true := by
    rw [hd]
    decide +kernel
  obtain ⟨horderly, hconserved⟩ := conservation hb 20 crowded
  refine ⟨hfinishes, ?_, ?_, horderly, hconserved hfinishes⟩
  · rw [hd]
    decide +kernel
  · rw [hd]
    decide +kernel

end SheddingQueue.Demo
