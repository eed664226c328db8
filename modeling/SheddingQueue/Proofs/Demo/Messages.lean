import SheddingQueue.Demo
import SheddingQueue.Proofs.Json.Objects

/-!
# The messages of the demonstration

Each message describes the frame that was meant, so the demonstration never meets a message that it
cannot read. What becomes of a frame is known from its number, unless it is shed.
-/

namespace SheddingQueue.Demo

open Json

/-- The frame that the message with number `n` describes. -/
def frame (n : Nat) : Frame :=
  ⟨some (UInt64.ofNat n), (imageText n).map Utf8.encode,
    [("streamId", .scalar (.number (.natural 0)))]⟩

theorem imageText_plain {n : Nat} {image : String} (h : imageText n = some image) :
    IsPlain image ∧ image.isEmpty = false := by
  have hstart : IsPlain pictureStart := by decide
  have hpicture (k : Nat) : IsPlain (pictureStart ++ String.ofList (List.replicate k 'A')) := by
    intro c hc
    rw [String.toList_append, List.mem_append, String.toList_ofList] at hc
    rcases hc with hc | hc
    · exact hstart c hc
    · rw [(List.mem_replicate.mp hc).2]
      rfl
  rw [imageText] at h
  split at h
  · cases h
  · split at h
    · cases h
      exact ⟨by decide, rfl⟩
    · cases h
      refine ⟨hpicture 1024, ?_⟩
      decide +kernel

theorem closes_image (n : Nat) : Closes
    (Utf8.encode
      ((imageText n).elim "" (fun image => ",\"frameData\":\"" ++ image ++ "\"") ++ "\x7d"))
    ((imageText n).toList.map fun image => ("frameData", .text image)) := by
  cases h : imageText n with
  | none => exact .brace
  | some image =>
    have hkey : IsPlain "frameData" := by decide
    have hclose := Closes.member hkey (.text (imageText_plain h).1) .brace
    have hbytes : Utf8.encode (",\"frameData\":\"" ++ image ++ "\"" ++ "\x7d") =
        0x2c :: (quoted "frameData" ++ 0x3a :: (quoted image ++ [0x7d])) := by
      have hstart : Utf8.encode ",\"frameData\":\"" =
        0x2c :: (quoted "frameData" ++ [0x3a, 0x22]) := rfl
      have hquote : Utf8.encode "\"" = [0x22] := rfl
      have hbrace : Utf8.encode "\x7d" = [0x7d] := rfl
      rw [Utf8.encode_append, Utf8.encode_append, Utf8.encode_append, hstart, hquote, hbrace]
      simp [quoted]
    show Closes (Utf8.encode (",\"frameData\":\"" ++ image ++ "\"" ++ "\x7d")) _
    rw [hbytes]
    exact hclose

theorem encode_message {n : Nat} :
    Utf8.encode (message n) = 0x7b :: (quoted "seqId" ++ 0x3a :: (Utf8.encode (toString n) ++
      (0x2c :: (quoted "streamId" ++ 0x3a :: (Utf8.encode (toString 0) ++
        Utf8.encode ((imageText n).elim "" (fun image => ",\"frameData\":\"" ++ image ++ "\"")
          ++ "\x7d")))))) := by
  have hstart : Utf8.encode "\x7b\"seqId\":" = 0x7b :: (quoted "seqId" ++ [0x3a]) := rfl
  have hstream : Utf8.encode ",\"streamId\":0" =
    0x2c :: (quoted "streamId" ++ 0x3a :: Utf8.encode (toString 0)) := rfl
  rw [message, String.append_assoc, String.append_assoc, Utf8.encode_append, Utf8.encode_append,
    Utf8.encode_append, hstart, hstream]
  simp

/-- What the message with number `n` says. -/
def entries (n : Nat) : List (String × Scalar) :=
  ("seqId", .number (.natural (UInt64.ofNat n))) :: ("streamId", .number (.natural 0)) ::
    (imageText n).toList.map fun image => ("frameData", .text image)

theorem read_message {n : Nat} (hn : n < UInt64.size) :
    ∃ members : List Member,
      members.map Member.entry = (entries n).map (fun e => (e.1, .scalar e.2)) ∧
      Document.read (Utf8.encode (message n)) = .object ⟨members, none, none⟩ := by
  have hseq : IsPlain "seqId" := by decide
  have hstream : IsPlain "streamId" := by decide
  have hnumber : Spells (Utf8.encode (toString n)) (.number (.natural (UInt64.ofNat n))) := by
    have hnumber := Spells.natural (UInt64.ofNat n)
    rwa [UInt64.toNat_ofNat_of_lt' hn] at hnumber
  rw [encode_message]
  exact read_object hseq hnumber (.member hstream (.natural 0) (closes_image n))

/-- The draft that the members of a message make. -/
theorem ofMembers_entries (n : Nat) :
    Draft.ofMembers ((entries n).map fun e => ⟨⟨e.1, 0⟩, .scalar e.2, 0⟩) =
      .ok ⟨some (some (UInt64.ofNat n)), (imageText n).map fun image => some (Utf8.encode image),
        [("streamId", .scalar (.number (.natural 0)))]⟩ := by
  rw [entries]
  cases himage : imageText n with
  | none => rfl
  | some image =>
    have hfilled : Draft.imageOf image = some (Utf8.encode image) := by
      rw [Draft.imageOf, (imageText_plain himage).2]
      rfl
    simp only [Option.toList_some, List.map_cons, List.map_nil, Option.map_some, ← hfilled]
    rfl

/-- Every message describes the frame that was meant. -/
theorem frame_of_source {n : Nat} (hn : n < UInt64.size) : (source n).frame? = .ok (frame n) := by
  obtain ⟨members, hmembers, hread⟩ := read_message hn
  have hdraft := ofMembers_entries n
  have hdraft : Draft.ofMembers members = _ := Draft.foldlM_of_entries (by
    rw [hmembers, List.map_map]
    rfl) hdraft
  rw [source, Source.frame?, Frame.ofMessage, hread]
  simp only [Frame.ofReading, hdraft, bind, Except.bind]
  rw [frame]
  cases imageText n <;> rfl

/-- What becomes of a frame that is not shed. -/
def fate (n : Nat) : Fate :=
  if n % 20 = 0 then .noImage else if n % 17 = 0 then .failed else .rendered

theorem verdict_picture (f : Frame) (text : String) :
    verdict f (Utf8.encode (pictureStart ++ text)) = .ok () := by
  rw [verdict, Utf8.encode_append, if_pos]
  exact List.isPrefixOf_iff_prefix.mpr (List.prefix_append _ _)

theorem verdict_other (f : Frame) :
    verdict f (Utf8.encode "AAAA") = .error (.decode "payload is not a base64 JPEG image") := by
  have hstart : Utf8.encode pictureStart = [0x2f, 0x39, 0x6a, 0x2f] := rfl
  have hother : Utf8.encode "AAAA" = [0x41, 0x41, 0x41, 0x41] := rfl
  rw [verdict, hstart, hother]
  rfl

theorem settle_of_image {threshold waiting : Nat} {f : Frame} {image : List UInt8}
    (h : waiting < threshold) (hf : f.image = some image) :
    (Worker.settle threshold waiting verdict f).1 =
      (Consumer.conclude f.seq (verdict f image)).1 := by
  rw [Worker.settle, Consumer.judge, if_neg (Nat.not_le.mpr h), hf]

/-- If a frame is not shed, its number tells what becomes of it. -/
theorem settle_frame {threshold waiting : Nat} (n : Nat) (h : waiting < threshold) :
    (Worker.settle threshold waiting verdict (frame n)).1 = fate n := by
  by_cases h20 : n % 20 = 0
  · have hnone : (frame n).image = none := by
      rw [frame, imageText, if_pos h20, Option.map_none]
    rw [fate, if_pos h20, Worker.settle, Consumer.judge, if_neg (Nat.not_le.mpr h), hnone]
  · rw [fate, if_neg h20]
    by_cases h17 : n % 17 = 0
    · have hsome : (frame n).image = some (Utf8.encode "AAAA") := by
        rw [frame, imageText, if_neg h20, if_pos h17, Option.map_some]
      rw [if_pos h17, settle_of_image h hsome, verdict_other]
      rfl
    · have hsome : (frame n).image =
          some (Utf8.encode (pictureStart ++ String.ofList (List.replicate 1024 'A'))) := by
        rw [frame, imageText, if_neg h20, if_neg h17, Option.map_some]
      rw [if_neg h17, settle_of_image h hsome, verdict_picture]
      rfl

end SheddingQueue.Demo
