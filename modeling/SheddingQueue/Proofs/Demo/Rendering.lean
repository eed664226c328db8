import SheddingQueue.Proofs.Consumer.Backlog
import SheddingQueue.Proofs.Consumer.Imageless
import SheddingQueue.Proofs.Demo.Messages

/-!
# What the messages show

A message reads back as the number and the image that it was made from, up to the largest number
there is. So the renderer's work is known from the numbers: it gets every frame that is not shed
but the twentieth ones, and it fails with the seventeenth ones among these.
`Demo.depicts_and_renders` says both of every message.
-/

namespace SheddingQueue.Demo

open Consumer

/-! ## The images -/

theorem encode_replicate (k : Nat) :
    Utf8.encode (String.ofList (List.replicate k 'A')) = List.replicate k 0x41 := by
  have hletter : String.utf8EncodeChar 'A' = [0x41] := rfl
  rw [Utf8.encode, String.toList_ofList]
  induction k with
  | zero => rfl
  | succ k ih =>
    rw [List.replicate_succ, List.flatMap_cons, ih, hletter, List.singleton_append,
      List.replicate_succ]

/-- What a good image is made of. -/
def picture : List UInt8 := Utf8.encode "/9j/" ++ List.replicate 1024 0x41

theorem encode_picture :
    Utf8.encode (pictureStart ++ String.ofList (List.replicate 1024 'A')) = picture := by
  rw [Utf8.encode_append, encode_replicate, pictureStart, picture]

theorem encode_ne_picture : Utf8.encode "AAAA" ≠ picture := by
  intro h
  have hfirst : (0x41 : UInt8) = 0x2f := (List.cons.inj h).1
  exact absurd hfirst (by decide)

/-- What stands for an image in the message is one of three things. -/
theorem image_frame_cases (n : Nat) :
    (20 ∣ n ∧ (frame n).image = none) ∨
    (¬ 20 ∣ n ∧ 17 ∣ n ∧ (frame n).image = some (Utf8.encode "AAAA")) ∨
    (¬ 20 ∣ n ∧ ¬ 17 ∣ n ∧ (frame n).image = some picture) := by
  rw [frame, imageText]
  simp only [← Nat.dvd_iff_mod_eq_zero]
  by_cases h20 : 20 ∣ n
  · exact .inl ⟨h20, by rw [if_pos h20, Option.map_none]⟩
  by_cases h17 : 17 ∣ n
  · exact .inr (.inl ⟨h20, h17, by rw [if_neg h20, if_pos h17, Option.map_some]⟩)
  · refine .inr (.inr ⟨h20, h17, ?_⟩)
    rw [if_neg h20, if_neg h17, Option.map_some, encode_picture]

/-- The frame is what the message with the number `seq` was made from. -/
structure Depicts (seq : UInt64) (f : Frame) : Prop where
  seq_eq : f.seq = some seq
  fields_eq : f.fields = [("streamId", .scalar (.number (.natural 0)))]
  none_iff : f.image = none ↔ 20 ∣ seq.toNat
  other_iff : f.image = some (Utf8.encode "AAAA") ↔ 17 ∣ seq.toNat ∧ ¬ 20 ∣ seq.toNat
  picture_iff : f.image = some picture ↔ ¬ 17 ∣ seq.toNat ∧ ¬ 20 ∣ seq.toNat

theorem depicts_frame (seq : UInt64) : Depicts seq (frame seq.toNat) := by
  have hne := encode_ne_picture
  have hseq : (frame seq.toNat).seq = some seq := by
    rw [frame, UInt64.ofNat_toNat]
  rcases image_frame_cases seq.toNat with ⟨h20, himage⟩ | ⟨h20, h17, himage⟩ | ⟨h20, h17, himage⟩
  · exact ⟨hseq, rfl, by simp [himage, h20], by simp [himage, h20], by simp [himage, h20]⟩
  · exact ⟨hseq, rfl, by simp [himage, h20], by simp [himage, h20, h17], by simp [himage, h17, hne]⟩
  · exact ⟨hseq, rfl, by simp [himage, h20], by simp [himage, h17, hne.symm],
      by simp [himage, h20, h17]⟩

/-! ## The renderer -/

/-- The renderer of the demonstration. -/
def renderer : Renderer := .aloof fun _ => verdict

/-- It does not matter whether the frame is handled by a thread that takes turns with others. -/
theorem settle_eq_handle (threshold : Nat) (s : Consumer.State) (f : Frame) :
    let r := handle threshold renderer s f
    let w := Worker.settle threshold s.queue.count verdict f
    r.outcome = .handled w.1 f.seq s.queue.count ∧ r.events = w.2 := by
  intro r w
  cases hj : judge threshold s.queue.count f with
  | shed => simp only [r, w, handle_of_shed hj, Worker.settle, hj, and_self]
  | skip => simp only [r, w, handle_of_skip hj, Worker.settle, hj, and_self]
  | render image =>
    simp only [r, w, handle_of_render hj, Worker.settle, hj]
    exact ⟨rfl, rfl⟩

/-- What the renderer has to do with the frame that the message with the number `seq` describes, if
it is not shed. -/
structure Renders (seq : UInt64) (threshold : Nat) (s : Consumer.State) (f : Frame)
    (r : Consumer.Result) : Prop where
  called_iff : (∃ call, Called renderer s s.queue f call r.state) ↔ ¬ 20 ∣ seq.toNat
  uncalled : 20 ∣ seq.toNat → r.state = s
  fails_iff : ∀ call, Called renderer s s.queue f call r.state →
    ((∃ fault, call.verdict = .error fault) ↔ 17 ∣ seq.toNat)
  failed_iff : r.outcome = .handled .failed f.seq s.queue.count ↔
    17 ∣ seq.toNat ∧ ¬ 20 ∣ seq.toNat
  /-- A worker that takes turns with the feed does the same. -/
  worker : let w := Worker.settle threshold s.queue.count verdict f
    r.outcome = .handled w.1 f.seq s.queue.count ∧ r.events = w.2

variable {seq : UInt64} {threshold : Nat} {s : Consumer.State} {f : Frame}

theorem Depicts.not_called (h : Depicts seq f) (h20 : 20 ∣ seq.toNat) {call : Call}
    {after : Consumer.State} : ¬ Called renderer s s.queue f call after := by
  intro hcalled
  cases (h.none_iff.mpr h20).symm.trans hcalled.image

/-- The renderer fails with whatever is no picture. -/
theorem Depicts.fails_iff (h : Depicts seq f) {call : Call} {after : Consumer.State}
    (hcalled : Called renderer s s.queue f call after) :
    (∃ fault, call.verdict = .error fault) ↔ 17 ∣ seq.toNat := by
  have h20 : ¬ 20 ∣ seq.toNat := fun h20 => h.not_called h20 hcalled
  have hverdict : call.verdict = verdict f call.image := hcalled.performed.2.1
  rw [hverdict]
  by_cases h17 : 17 ∣ seq.toNat
  · have himage := hcalled.image.symm.trans (h.other_iff.mpr ⟨h17, h20⟩)
    rw [Option.some.inj himage, verdict_other]
    exact iff_of_true ⟨_, rfl⟩ h17
  · have himage := hcalled.image.symm.trans (h.picture_iff.mpr ⟨h17, h20⟩)
    rw [Option.some.inj himage, ← encode_picture, verdict_picture]
    exact iff_of_false (fun ⟨_, hfault⟩ => nomatch hfault) h17

theorem fate_eq_failed_iff (n : Nat) : fate n = .failed ↔ 17 ∣ n ∧ ¬ 20 ∣ n := by
  rw [fate]
  simp only [← Nat.dvd_iff_mod_eq_zero]
  by_cases h20 : 20 ∣ n
  · simp [h20]
  · by_cases h17 : 17 ∣ n <;> simp [h20, h17]

theorem renders_frame (seq : UInt64) (hlt : s.queue.count < threshold) :
    Renders seq threshold s (frame seq.toNat)
      (handle threshold renderer s (frame seq.toNat)) := by
  have h := depicts_frame seq
  have hworker := settle_eq_handle threshold s (frame seq.toNat)
  have hfailed : (handle threshold renderer s (frame seq.toNat)).outcome =
      .handled .failed (frame seq.toNat).seq s.queue.count ↔
        17 ∣ seq.toNat ∧ ¬ 20 ∣ seq.toNat := by
    rw [hworker.1, settle_frame _ hlt, Outcome.handled.injEq, fate_eq_failed_iff]
    simp
  by_cases h20 : 20 ∣ seq.toNat
  · obtain ⟨hstate, -⟩ := passesOver_of_none (h.none_iff.mpr h20) threshold renderer s
    exact ⟨iff_of_false (fun ⟨_, hcalled⟩ => h.not_called h20 hcalled) (not_not.mpr h20),
      fun _ => hstate, fun _ => h.fails_iff, hfailed, hworker⟩
  · obtain ⟨image, himage⟩ := Option.ne_none_iff_exists'.mp (mt h.none_iff.mp h20)
    obtain ⟨call, -, hcalled⟩ := called_of_some hlt himage renderer
    exact ⟨iff_of_true ⟨call, hcalled⟩ h20, fun h => absurd h h20, fun _ => h.fails_iff, hfailed,
      hworker⟩

theorem ofMessage_of_frame? {bytes : List UInt8} (h : (Source.message bytes).frame? = .ok f) :
    Frame.ofMessage bytes = .ok f := by
  rw [Source.frame?] at h
  cases hread : Frame.ofMessage bytes with
  | ok g =>
    rw [hread] at h
    exact congrArg Except.ok (Except.ok.inj h)
  | error fault =>
    rw [hread] at h
    cases h

/-- Every message reads back as what it was made from, and if its frame is not shed the renderer's
work with it is known. -/
theorem depicts_and_renders (seq : UInt64) :
    ∃ f, Frame.ofMessage (Utf8.encode (message seq.toNat)) = .ok f ∧ Depicts seq f ∧
      ∀ threshold s, s.queue.count < threshold →
        Renders seq threshold s f (handle threshold renderer s f) := by
  have hread := ofMessage_of_frame? (frame_of_source seq.toNat_lt_size)
  exact ⟨_, hread, depicts_frame seq, fun _ _ => renders_frame seq⟩

/-- The renderer gets the message with the largest number of all, and fails with it. -/
theorem depicts_and_renders_of_largest :
    let s : Consumer.State := { queue := .empty 2 }
    ∃ f, Frame.ofMessage (Utf8.encode (message 18446744073709551615)) = .ok f ∧
      f.seq = some 18446744073709551615 ∧ f.image = some (Utf8.encode "AAAA") ∧
      (handle 1 renderer s f).outcome = .handled .failed (some 18446744073709551615) 0 := by
  intro s
  obtain ⟨f, hread, hdepicts, hrenders⟩ := depicts_and_renders 18446744073709551615
  have hdivides : 17 ∣ (18446744073709551615 : UInt64).toNat ∧
      ¬ 20 ∣ (18446744073709551615 : UInt64).toNat := by decide
  have hfailed := (hrenders 1 s (by decide)).failed_iff.mpr hdivides
  rw [hdepicts.seq_eq] at hfailed
  exact ⟨f, hread, hdepicts.seq_eq, hdepicts.other_iff.mpr hdivides, hfailed⟩

end SheddingQueue.Demo
