import SheddingQueue.Proofs.Demo.Conservation
import SheddingQueue.Proofs.Demo.Rounds

/-!
# What the demonstration comes to when there is room

If no frame is dropped and none is shed, all numbers at the end are known beforehand, whatever the
order of the turns is. No frame is dropped by a patient feed, or if all of them fit into the queue;
none is shed if the threshold lies above every backlog, or above the number of all frames.
-/

namespace SheddingQueue.Demo

variable {b : Built Frame} {last : Nat} {t : List Shift.Move} {d : State}

/-- What becomes of the frames from one to `n` if none of them is shed. -/
def tallyUpTo (n : Nat) : Tally :=
  let noImage := n / 20
  -- a frame without an image cannot have a bad one
  let failed := n / 17 - n / 340
  ⟨n - noImage - failed, 0, noImage, failed⟩

theorem tallyUpTo_succ (n : Nat) : tallyUpTo (n + 1) = (tallyUpTo n).count (fate (n + 1)) := by
  have h340 : 340 ∣ n + 1 ↔ 20 ∣ n + 1 ∧ 17 ∣ n + 1 := by omega
  have hfailed : n / 340 ≤ n / 17 := by omega
  have hbound : n / 20 + (n / 17 - n / 340) ≤ n := by omega
  simp only [tallyUpTo, fate, Nat.succ_div, h340, ← Nat.dvd_iff_mod_eq_zero]
  generalize n / 20 = a at *
  generalize n / 17 = b at *
  generalize n / 340 = c at *
  by_cases h20 : 20 ∣ n + 1
  · by_cases h17 : 17 ∣ n + 1
    · simp only [h20, h17, and_true, if_true, Tally.count, Tally.mk.injEq, true_and]
      omega
    · simp only [h20, h17, and_false, if_true, if_false, Tally.count, Tally.mk.injEq, true_and]
      omega
  · by_cases h17 : 17 ∣ n + 1
    · simp only [h20, h17, false_and, if_true, if_false, Tally.count, Tally.mk.injEq, true_and]
      omega
    · simp only [h20, h17, false_and, if_false, Tally.count, Tally.mk.injEq, true_and]
      omega

theorem tally_fates (n : Nat) :
    ((List.range' 1 n).map fate).foldl Tally.count {} = tallyUpTo n := by
  induction n with
  | zero => rfl
  | succ n ih =>
    rw [List.range'_1_concat, List.map_append, List.foldl_append, ih, tallyUpTo_succ,
      Nat.add_comm 1 n]
    rfl

/-- The numbers at the end. -/
structure Totals (last : Nat) (d : State) : Prop where
  accepted : d.feed.accepted = last
  shed : d.worker.tally.shed = 0
  noImage : d.worker.tally.noImage = last / 20
  failed : d.worker.tally.failed = last / 17 - last / 340
  rendered : d.worker.tally.rendered = last - d.worker.tally.noImage - d.worker.tally.failed
  /-- Every frame has been handled, one after another. -/
  order : handledSeqs d.events = (List.range' 1 last).map fun n => some (UInt64.ofNat n)

/-- A frame that is not shed meets its own fate. -/
theorem Record.fates_eq (h : Record b last t d) (hcalm : ∀ e ∈ Shift.handled t, e.2 ≠ .shed)
    {ks : List Nat} (hks : (Shift.handled t).map Prod.fst = ks.map frame) :
    (Shift.handled t).map Prod.snd = ks.map fate := by
  have hfates : ∀ e ∈ Shift.handled t, ∀ n, e.1 = frame n → e.2 = fate n :=
    fun e he => h.fates e he (hcalm e he)
  generalize Shift.handled t = es at hks hfates
  induction ks generalizing es with
  | nil => rw [List.map_eq_nil_iff.mp hks]; rfl
  | cons k ks ih =>
    obtain ⟨e, es, rfl, he, hes⟩ := List.map_eq_cons_iff.mp hks
    rw [List.map_cons, List.map_cons, hfates e List.mem_cons_self k he,
      ih es hes fun e he => hfates e (List.mem_cons_of_mem _ he)]

/-- If no frame is dropped and none is shed, each one meets its own fate. -/
theorem Record.totals (h : Record b last t d) (hq : b.queue.Stores b.capacity [])
    (hfinishes : d.finishes = true) (hdropped : d.feed.dropped = 0)
    (hcalm : ∀ e ∈ Shift.handled t, e.2 ≠ .shed) : Totals last d := by
  obtain ⟨hsettled, hlength⟩ := h.finished hq hfinishes
  obtain ⟨ks, hks, hhandled⟩ := h.numbers hq
  have haccepted : d.feed.accepted = last := by
    rw [Feed.settled, hdropped] at hsettled
    exact hsettled
  -- some of the frames are handled, and as many as there are
  have hall : ks = List.range' 1 last := by
    have hcount := congrArg List.length hhandled
    rw [List.length_map, List.length_map, hlength, haccepted] at hcount
    rw [hsettled] at hks
    exact hks.eq_of_length (by rw [← hcount, List.length_range'])
  have htally : d.worker.tally = tallyUpTo last := by
    rw [h.tally, h.fates_eq hcalm hhandled, hall, tally_fates]
  refine ⟨haccepted, ?_, ?_, ?_, ?_, ?_⟩
  · rw [htally]; rfl
  · rw [htally]; rfl
  · rw [htally]; rfl
  · rw [htally]; rfl
  · rw [h.handledSeqs_eq hhandled, hall]

/-- With enough room and a high enough threshold, the numbers at the end do not depend on the order
of the turns. -/
theorem totals_of_room {st : Settings} (hb : st.build Frame = .ok b) (last : UInt64)
    (hroom : (∃ interval, b.policy = .retry interval) ∨ last.toNat ≤ b.capacity - 1)
    (hthreshold : b.capacity ≤ b.watch.threshold ∨ last.toNat ≤ b.watch.threshold)
    (order : List Thread) :
    let d := play (stage b last.toNat) { queue := b.queue } order
    d.finishes = true → Totals last.toNat d := by
  intro d hfinishes
  obtain ⟨hq, -⟩ := Settings.stores_of_build hb
  obtain ⟨hcapacity, -⟩ := Settings.capacity_of_build hb
  obtain ⟨t, h⟩ := record_of_play hb last.toNat_lt_size order
  have hdropped : d.feed.dropped = 0 := by
    rcases hroom with ⟨interval, hpolicy⟩ | hfits
    · exact (h.conserved hq hfinishes).patient interval hpolicy
    · rcases Nat.eq_zero_or_pos d.feed.dropped with hzero | hpos
      · exact hzero
      · obtain ⟨-, hmany⟩ := h.dropped hpos
        rw [minCapacity] at hcapacity
        omega
  refine h.totals hq hfinishes hdropped ?_
  intro e he hshed
  obtain ⟨hcapacity, hlast⟩ := h.shed e he hshed
  omega

/-- A patient feed, two slots, and a threshold that is never reached. -/
theorem totals_of_patience :
    ∃ b,
      ({ capacity := 2, policy := .patient, threshold := .fixed 2 } : Settings).build Frame = .ok b ∧
      let d := play (stage b 340) { queue := b.queue } (rounds 340)
      d.finishes = true ∧ Totals 340 d := by
  have hb : ({ capacity := 2, policy := .patient, threshold := .fixed 2 } : Settings).build Frame =
    .ok ⟨_, _, _, _, _⟩ := rfl
  have hfinishes := finishes_rounds hb 340
  exact ⟨_, hb, hfinishes,
    totals_of_room hb 340 (.inl ⟨_, rfl⟩) (.inl (Nat.le_refl 2)) (rounds 340) hfinishes⟩

end SheddingQueue.Demo
