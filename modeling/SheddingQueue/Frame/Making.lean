import SheddingQueue.Frame.Message

/-!
# Making frames

A frame starts as a blank one, as one with a number or as what a message describes, and then images
and fields are attached to it. `Making` has all the ways in which a frame comes about.
-/

namespace SheddingQueue

/-- How a frame comes about. -/
inductive Making where
  | blank
  | numbered (n : UInt64)
  | message (bytes : List UInt8)
  | withImage (m : Making) (bytes : List UInt8)
  | withField (m : Making) (key : String) (value : Json.Value)

namespace Making

/-- The frame that comes about, if there was no message or a good one. -/
def frame? : Making → Option Frame
  | blank => some .blank
  | numbered n => some (.numbered n)
  | message bytes => (Frame.ofMessage bytes).toOption
  | withImage m bytes => m.frame?.map (·.withImage bytes)
  | withField m key value => m.frame?.map (·.withField key value)

/-- The image that was attached last, if one was. -/
def attached? : Making → Option (List UInt8)
  | withImage _ bytes => some bytes
  | withField m _ _ => m.attached?
  | _ => none

/-- The values that were attached as fields. -/
def values : Making → List Json.Value
  | withImage m _ => m.values
  | withField m _ value => value :: m.values
  | _ => []

theorem ofMessage_of_message {bytes : List UInt8} {f : Frame}
    (h : (message bytes).frame? = some f) : Frame.ofMessage bytes = .ok f := by
  rw [frame?] at h
  cases hread : Frame.ofMessage bytes with
  | error fault =>
    rw [hread] at h
    cases h
  | ok g =>
    rw [hread] at h
    exact congrArg Except.ok (Option.some.inj h)

end Making

end SheddingQueue
