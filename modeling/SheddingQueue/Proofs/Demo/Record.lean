import SheddingQueue.Proofs.Demo
import SheddingQueue.Proofs.Demo.Messages
import SheddingQueue.Proofs.Shift.Warning

/-!
# What the demonstration comes to

`Demo.Record` is the invariant of the demonstration: the shift that it has been so far, what the
feed and the worker make of it, and what they have reported. The feed makes the frames one after
another and closes the queue after the last one, so what is stored is always some of the first
frames, in order, and no frame comes to a closed queue. `record_of_play` says that every order of
the turns keeps to this.
-/

namespace SheddingQueue

variable {fs stored : List Frame} {q : Queue Frame} {last : Nat} {b : Built Frame}

/-! ## What is reported -/

/-- The sequence number of a frame that the consumer begins to handle. -/
def Notice.handled? : Notice → Option (Option UInt64)
  | .shed seq _ | .processing seq _ => some seq
  | _ => none

/-- Whether a message could not be read, or a frame came to a closed queue. -/
def Notice.isTrouble : Notice → Bool
  | .unreadable _ | .rejected _ => true
  | _ => false

/-- The sequence numbers of the frames that the consumer handles, in this order. -/
def handledSeqs (events : List Event) : List (Option UInt64) :=
  (notices events).filterMap Notice.handled?

/-- What events say: how many frames were accepted, how many dropped, and which ones were handled.
There was no trouble. -/
structure Tells (events : List Event) (accepted dropped : Nat) (seqs : List (Option UInt64)) :
    Prop where
  accepted : increments .enqueued events = accepted
  dropped : increments .dropped events = dropped
  handled : handledSeqs events = seqs
  smooth : (notices events).any Notice.isTrouble = false

theorem Tells.nothing : Tells [] 0 0 [] := ⟨rfl, rfl, rfl, rfl⟩

theorem Tells.append {es fs : List Event} {accepted dropped more moreDropped : Nat}
    {seqs moreSeqs : List (Option UInt64)} (h : Tells es accepted dropped seqs)
    (h' : Tells fs more moreDropped moreSeqs) :
    Tells (es ++ fs) (accepted + more) (dropped + moreDropped) (seqs ++ moreSeqs) := by
  refine ⟨?_, ?_, ?_, ?_⟩
  · rw [increments_append, h.accepted, h'.accepted]
  · rw [increments_append, h.dropped, h'.dropped]
  · rw [handledSeqs, notices_append, List.filterMap_append, ← h.handled, ← h'.handled]
    rfl
  · rw [notices_append, List.any_append, h.smooth, h'.smooth]
    rfl

namespace Worker

theorem settle_tells (threshold waiting : Nat) (verdict : Verdict) (f : Frame) :
    Tells (settle threshold waiting verdict f).2 0 0 [f.seq] := by
  rw [settle]
  cases Consumer.judge threshold waiting f with
  | shed => exact ⟨rfl, rfl, rfl, rfl⟩
  | skip => exact ⟨rfl, rfl, rfl, rfl⟩
  | render image =>
    dsimp only
    cases verdict f image with
    | ok => exact ⟨rfl, rfl, rfl, rfl⟩
    | error => exact ⟨rfl, rfl, rfl, rfl⟩

/-- A turn of the worker reports and counts the frame that it handles, if it handles one. -/
theorem turn_tells (w : Worker) (threshold : Nat) (verdict : Verdict) (q : Queue Frame) :
    let handled := (w.handles threshold verdict q).toList
    Tells (w.turn threshold verdict false q).2.2 0 0 (handled.map fun e => e.1.seq) ∧
      (w.turn threshold verdict false q).1.tally =
        (handled.map Prod.snd).foldl Tally.count w.tally := by
  obtain ⟨phase, tally⟩ := w
  cases phase with
  | poised => exact ⟨.nothing, rfl⟩
  | askClosed => exact ⟨.nothing, rfl⟩
  | askEmpty =>
    rw [turn]
    dsimp only
    split
    · exact ⟨⟨rfl, rfl, rfl, rfl⟩, rfl⟩
    · exact ⟨.nothing, rfl⟩
  | reach =>
    have htake : ((⟨.reach, tally⟩ : Worker).take q).1.tally = tally := by
      rw [take]
      split <;> rfl
    rw [turn]
    dsimp only
    split
    · exact ⟨.nothing, rfl⟩
    · exact ⟨.nothing, htake⟩
  | wake =>
    have htake : ((⟨.wake, tally⟩ : Worker).take q).1.tally = tally := by
      rw [take]
      split <;> rfl
    exact ⟨.nothing, htake⟩
  | holding f => exact ⟨settle_tells threshold q.count verdict f, rfl⟩
  | finished => exact ⟨.nothing, rfl⟩

end Worker

/-! ## The feed -/

namespace Feed

variable {w : Feed} {r : Turned}

/-- How many frames have been accepted or dropped. -/
def settled (w : Feed) : Nat := w.accepted + w.dropped

/-- What holds of a feed that makes the frames of the demonstration, after it has stored some. -/
structure Sound (last : Nat) (w : Feed) (stored : List Frame) : Prop where
  /-- The stored frames are some of those that have been settled. -/
  numbers : ∃ ks : List Nat, ks.Sublist (List.range' 1 w.settled) ∧ stored = ks.map Demo.frame
  accepted : w.accepted = stored.length
  next : match w.phase with
    | .poised => w.next = w.settled + 1 ∧ w.settled ≤ last
    | .reach f | .wake f =>
      f = Demo.frame (w.settled + 1) ∧ w.next = w.settled + 2 ∧ w.settled < last
    | .finished => w.settled = last

theorem Sound.settled_le (h : w.Sound last stored) : w.settled ≤ last := by
  have hnext := h.next
  split at hnext
  · exact hnext.2
  · exact Nat.le_of_lt hnext.2.2
  · exact Nat.le_of_lt hnext.2.2
  · exact Nat.le_of_eq hnext

theorem Sound.of_offers (h : w.Sound last stored) {policy : Policy} {f : Frame}
    (hw : w.Offers policy q f) :
    f = Demo.frame (w.settled + 1) ∧ w.next = w.settled + 2 ∧ w.settled < last ∧
      w.finishes = false := by
  have hnext := h.next
  rcases hw with hw | ⟨hw, -⟩
  · rw [hw] at hnext
    exact ⟨hnext.1, hnext.2.1, hnext.2.2, by rw [finishes, hw]⟩
  · rw [hw] at hnext
    exact ⟨hnext.1, hnext.2.1, hnext.2.2, by rw [finishes, hw]⟩

/-- What a turn of the feed keeps, and what it reports. -/
structure Keeps (last : Nat) (policy : Policy) (q : Queue Frame) (w : Feed) (stored fs : List Frame)
    (r : Turned) : Prop where
  sound : r.1.Sound last (stored ++ fs)
  closed : r.2.1.closed = r.1.finishes
  tells : ∃ more, r.1.dropped = w.dropped + more ∧ Tells r.2.2 fs.length more []
  /-- A frame is dropped only if the policy says so, there is no room, and it is one of the frames
  that were to be made. -/
  dropped : r.1.dropped = w.dropped ∨
    (policy = .drop ∧ w.settled < last ∧ ∃ f, q.offer f = (.refused .full f, q))

/-- The frames after one more has been settled. -/
theorem Sound.numbers_succ (h : w.Sound last stored) {n : Nat} (hn : n = w.settled + 1) :
    (∃ ks : List Nat, ks.Sublist (List.range' 1 n) ∧ stored = ks.map Demo.frame) ∧
      ∃ ks : List Nat, ks.Sublist (List.range' 1 n) ∧
        stored ++ [Demo.frame (w.settled + 1)] = ks.map Demo.frame := by
  obtain ⟨ks, hks, hstored⟩ := h.numbers
  rw [hn, List.range'_1_concat]
  refine ⟨⟨ks, hks.trans (List.sublist_append_left _ _), hstored⟩, ks ++ [1 + w.settled], ?_, ?_⟩
  · exact hks.append (List.Sublist.refl _)
  · rw [List.map_append, ← hstored, Nat.add_comm]
    rfl

theorem Advance.keeps {plan : Plan} (hplan : plan.source = Demo.source)
    (hlast : plan.last < UInt64.size) (h : Advance plan q w fs r) (hw : w.Sound plan.last stored) (hq : q.closed = w.finishes) :
    Keeps plan.last plan.policy q w stored fs r := by
  have hnext := hw.next
  have hnone : w.accepted = (stored ++ []).length := by
    rw [List.append_nil]
    exact hw.accepted
  have hnumbers : ∃ ks : List Nat, ks.Sublist (List.range' 1 w.settled) ∧
      stored ++ [] = ks.map Demo.frame := by
    rw [List.append_nil]
    exact hw.numbers
  have quiet : ∃ more, w.dropped = w.dropped + more ∧ Tells [] 0 more [] := ⟨0, rfl, .nothing⟩
  cases h with
  | close hph hlt =>
    rw [hph] at hnext
    refine ⟨⟨hnumbers, hnone, ?_⟩, rfl, quiet, .inl rfl⟩
    show w.settled = plan.last
    omega
  | make hph hle hf =>
    rw [hph] at hnext
    rw [hplan, Demo.frame_of_source (Nat.lt_of_le_of_lt hle hlast)] at hf
    cases hf
    rw [finishes, hph] at hq
    refine ⟨⟨hnumbers, hnone, ?_⟩, hq, quiet, .inl rfl⟩
    show Demo.frame w.next = Demo.frame (w.settled + 1) ∧ w.next + 1 = w.settled + 2 ∧
      w.settled < plan.last
    rw [hnext.1]
    exact ⟨rfl, rfl, by omega⟩
  | skip hph hle hm =>
    -- every message describes a frame
    rw [hph] at hnext
    rw [hplan, Demo.frame_of_source (Nat.lt_of_le_of_lt hle hlast)] at hm
    cases hm
  | sleep hph hs =>
    rw [hph] at hnext
    rw [finishes, hph] at hq
    exact ⟨⟨hnumbers, hnone, hnext⟩, hq, quiet, .inl rfl⟩
  | @accepted f q' ho hoffer =>
    obtain ⟨rfl, hn, hlt, hfinishes⟩ := hw.of_offers ho
    have hsettled : w.accepted + 1 + w.dropped = w.settled + 1 := Nat.add_right_comm _ _ _
    have hclosed := Queue.closed_offer q (Demo.frame (w.settled + 1))
    rw [hoffer, hq, hfinishes] at hclosed
    refine ⟨⟨(hw.numbers_succ hsettled).2, ?_, ?_⟩, hclosed, ⟨0, rfl, ?_⟩, .inl rfl⟩
    · rw [List.length_append, ← hw.accepted]
      rfl
    · show w.next = w.accepted + 1 + w.dropped + 1 ∧ w.accepted + 1 + w.dropped ≤ plan.last
      omega
    · exact ⟨rfl, rfl, rfl, rfl⟩
  | retried ho hpolicy hoffer =>
    obtain ⟨hf, hn, hlt, hfinishes⟩ := hw.of_offers ho
    refine ⟨⟨hnumbers, hnone, hf, hn, hlt⟩, hq.trans hfinishes, ⟨0, rfl, ?_⟩, .inl rfl⟩
    exact ⟨rfl, rfl, rfl, rfl⟩
  | dropped ho hpolicy hoffer =>
    obtain ⟨hf, hn, hlt, hfinishes⟩ := hw.of_offers ho
    have hsettled : w.accepted + (w.dropped + 1) = w.settled + 1 := rfl
    refine ⟨⟨?_, hnone, ?_⟩, hq.trans hfinishes, ⟨1, rfl, ?_⟩, .inr ⟨hpolicy, hlt, _, hoffer⟩⟩
    · rw [List.append_nil]
      exact (hw.numbers_succ hsettled).1
    · show w.next = w.accepted + (w.dropped + 1) + 1 ∧ w.accepted + (w.dropped + 1) ≤ plan.last
      omega
    · exact ⟨rfl, rfl, rfl, rfl⟩
  | rejected ho hoffer =>
    -- the feed is the only one to close the queue, and it does so in the end
    obtain ⟨-, -, -, hfinishes⟩ := hw.of_offers ho
    rw [Queue.closed_of_offer hoffer, hfinishes] at hq
    cases hq
  | rest hph =>
    exact ⟨⟨hnumbers, hnone, hnext⟩, hq, quiet, .inl rfl⟩

end Feed

/-! ## Both threads -/

namespace Demo

variable {d : State} {t : List Shift.Move}

/-- The demonstration with a new queue and `last` messages. -/
def stage (b : Built Frame) (last : Nat) : Stage :=
  ⟨⟨b.policy, source, last⟩, b.watch.threshold, verdict⟩

/-- What the demonstration has come to, as a shift with the history `t`. -/
structure Record (b : Built Frame) (last : Nat) (t : List Shift.Move) (d : State) : Prop where
  run : Run (Shift.Step b.watch.threshold fun _ => verdict) { crowd := Crowd.start b.queue 1 } t
    (d.shift (stage b last))
  lost : ∀ l ∈ t, l.lost? = none
  cancelled : d.cancelled = false
  feed : d.feed.Sound last (Shift.accepted t)
  closed : d.queue.closed = d.feed.finishes
  tally : d.worker.tally = ((Shift.handled t).map Prod.snd).foldl Tally.count {}
  tells : Tells d.events d.feed.accepted d.feed.dropped ((Shift.handled t).map fun e => e.1.seq)
  /-- A frame is dropped only if there is no room for all frames. -/
  dropped : 0 < d.feed.dropped → b.policy = .drop ∧ b.capacity ≤ last
  /-- A frame is shed only if enough frames can wait behind it. -/
  shed : ∀ e ∈ Shift.handled t, e.2 = .shed →
    b.watch.threshold < b.capacity ∧ b.watch.threshold < last
  /-- What becomes of any other frame is known from its number. -/
  fates : ∀ e ∈ Shift.handled t, e.2 ≠ .shed → ∀ n, e.1 = frame n → e.2 = fate n

theorem Record.start (b : Built Frame) (hb : b.queue.closed = false) (last : Nat) :
    Record b last [] { queue := b.queue } :=
  ⟨.start, nofun, rfl, ⟨⟨[], List.Sublist.refl _, rfl⟩, rfl, rfl, Nat.zero_le last⟩, hb, rfl,
    .nothing, nofun, nofun, nofun⟩

/-- What is stored, and how many frames there are in all. -/
theorem Record.contents (h : Record b last t d) (hq : b.queue.Stores b.capacity []) :
    ∃ ys, d.queue.Stores b.capacity ys ∧ Shift.Ledger [] t (d.shift (stage b last)) ys ∧
      (Shift.handled t).length + d.worker.inHand.toList.length + ys.length = d.feed.accepted := by
  obtain ⟨ys, hys, hl⟩ := Shift.ledger_of_run (c := Crowd.start b.queue 1) hq h.run h.lost
  refine ⟨ys, hys, hl, ?_⟩
  have hlength := congrArg List.length hl.frames
  rw [List.length_append, List.length_append, List.length_map, List.nil_append] at hlength
  rw [h.feed.accepted, ← hlength, Nat.add_assoc]
  rfl

theorem events_turn_feed (stage : Stage) (d : State) :
    (d.turn stage .feed).events = d.events ++ (d.feed.turn stage.plan d.queue).2.2 := by
  simp [State.turn, State.report, State.events]

theorem events_turn_worker (stage : Stage) (d : State) :
    (d.turn stage .worker).events = d.events ++
      (d.worker.turn stage.threshold stage.verdict d.cancelled d.queue).2.2 := by
  simp [State.turn, State.report, State.events]

theorem Record.feed_turn (h : Record b last t d) (hq : b.queue.Stores b.capacity [])
    (hlast : last < UInt64.size) : ∃ u, Record b last (t ++ u) (d.turn (stage b last) .feed) := by
  obtain ⟨fs, hadvance⟩ := Feed.turn_advance (stage b last).plan d.queue d.feed
  obtain ⟨u, hrun, haccepted, hhandled, hlost⟩ := feed_shift (stage b last) d hadvance
  have hkeeps := hadvance.keeps rfl hlast h.feed h.closed
  have hhandled : Shift.handled (t ++ u) = Shift.handled t := by
    rw [Shift.handled, List.filterMap_append, ← Shift.handled, ← Shift.handled, hhandled,
      List.append_nil]
  refine ⟨u, h.run.append hrun, ?_, h.cancelled, ?_, hkeeps.closed, ?_, ?_, ?_, ?_, ?_⟩
  · intro l hl
    rcases List.mem_append.mp hl with hl | hl
    · exact h.lost l hl
    · exact hlost l hl
  · rw [Shift.accepted_append, haccepted]
    exact hkeeps.sound
  · rw [hhandled]
    exact h.tally
  · obtain ⟨more, hmore, htells⟩ := hkeeps.tells
    have htells := h.tells.append htells
    have hsound := hkeeps.sound.accepted
    rw [List.length_append, ← h.feed.accepted] at hsound
    rw [List.append_nil, ← hmore, ← hsound] at htells
    rw [hhandled, events_turn_feed]
    exact htells
  · intro hpos
    rcases hkeeps.dropped with hsame | ⟨hpolicy, hlt, f, hfull⟩
    · exact h.dropped (hsame ▸ hpos)
    · -- as many frames are waiting as there are usable slots, and one more was made
      obtain ⟨ys, hys, -, hcount⟩ := h.contents hq
      refine ⟨hpolicy, ?_⟩
      rcases hys.offer_cases f with ⟨-, ho⟩ | ⟨-, hlength, -⟩ | ⟨-, -, q, ho, -⟩
      · cases ho.symm.trans hfull
      · have hsettled : d.feed.accepted + d.feed.dropped < last := hlt
        omega
      · cases ho.symm.trans hfull
  · rw [hhandled]
    exact h.shed
  · rw [hhandled]
    exact h.fates

/-- What becomes of the frame in hand: those behind it are fewer than the usable slots, and they are
other frames than this one. -/
theorem Record.handles (h : Record b last t d) (hq : b.queue.Stores b.capacity [])
    {e : Frame × Fate} (he : e ∈ (d.worker.handles b.watch.threshold verdict d.queue).toList) :
    (e.2 = .shed → b.watch.threshold < b.capacity ∧ b.watch.threshold < last) ∧
      (e.2 ≠ .shed → ∀ n, e.1 = frame n → e.2 = fate n) := by
  obtain ⟨ys, hys, -, hcount⟩ := h.contents hq
  rw [Worker.handles, Option.mem_toList, Option.map_eq_some_iff] at he
  obtain ⟨f, hf, rfl⟩ := he
  constructor
  · intro hshed
    have hbehind := Worker.settle_shed_iff.mp hshed
    rw [hys.count_eq] at hbehind
    have hlength : ys.length < b.capacity := hys.length_lt
    have hsettled : d.feed.accepted + d.feed.dropped ≤ last := h.feed.settled_le
    rw [hf, Option.toList_some, List.length_singleton] at hcount
    omega
  · rintro hne n rfl
    exact settle_frame n (Nat.not_le.mp fun hle => hne (Worker.settle_shed_iff.mpr hle))

theorem Record.worker_turn (h : Record b last t d) (hq : b.queue.Stores b.capacity []) :
    ∃ u, Record b last (t ++ u) (d.turn (stage b last) .worker) := by
  obtain ⟨ys, hys, -, -⟩ := h.contents hq
  obtain ⟨zs, -, hadvance⟩ := Worker.turn_advance hys d.worker b.watch.threshold verdict d.cancelled
  obtain ⟨htells, htally⟩ := d.worker.turn_tells b.watch.threshold verdict d.queue
  have hfate (e : Frame × Fate) := h.handles (e := e) hq
  have hhandled :
    Shift.handled (t ++ [.turn (d.worker.handles b.watch.threshold verdict d.queue)]) =
      Shift.handled t ++ (d.worker.handles b.watch.threshold verdict d.queue).toList :=
    Shift.handled_snoc _ _
  refine ⟨[.turn (d.worker.handles b.watch.threshold verdict d.queue)],
    h.run.next (worker_shift (stage b last) d), ?_, h.cancelled, ?_, hadvance.closed.trans h.closed,
    ?_, ?_, h.dropped, ?_, ?_⟩
  · intro l hl
    rcases List.mem_append.mp hl with hl | hl
    · exact h.lost l hl
    · rw [List.mem_singleton.mp hl]
      rfl
  · rw [Shift.accepted_snoc, Shift.Move.stored?, Shift.Move.other?, Option.bind_none,
      Option.toList_none, List.append_nil]
    exact h.feed
  · rw [hhandled, List.map_append, List.foldl_append, ← h.tally, ← htally, ← h.cancelled]
    rfl
  · rw [hhandled, List.map_append, events_turn_worker, h.cancelled]
    exact h.tells.append htells
  · intro e he
    rw [hhandled] at he
    rcases List.mem_append.mp he with he | he
    · exact h.shed e he
    · exact (hfate e he).1
  · intro e he
    rw [hhandled] at he
    rcases List.mem_append.mp he with he | he
    · exact h.fates e he
    · exact (hfate e he).2

/-- Every order of the turns keeps to the record. -/
theorem record_of_play {st : Settings} (hb : st.build Frame = .ok b) (hlast : last < UInt64.size)
    (order : List Thread) :
    ∃ t, Record b last t (play (stage b last) { queue := b.queue } order) := by
  obtain ⟨hq, hopen⟩ := Settings.stores_of_build hb
  have run (d : State) (t : List Shift.Move) (h : Record b last t d) :
      ∃ t, Record b last t (play (stage b last) d order) := by
    induction order generalizing d t with
    | nil => exact ⟨t, h⟩
    | cons th order ih =>
      cases th with
      | feed =>
        obtain ⟨u, hu⟩ := h.feed_turn hq hlast
        exact ih _ _ hu
      | worker =>
        obtain ⟨u, hu⟩ := h.worker_turn hq
        exact ih _ _ hu
  exact run _ [] (.start b hopen last)

end Demo

end SheddingQueue
