import SheddingQueue.Frame

/-!
# What becomes of a frame

Every frame that the consumer takes out meets one `Fate`. A `Tally` counts fates.
-/

namespace SheddingQueue

/-- Why a frame could not be rendered. -/
inductive RenderFault where
  | decode (reason : String)
  | present (reason : String)
  deriving DecidableEq, Repr

def RenderFault.message : RenderFault → String
  | .decode reason => "failed to decode frame: " ++ reason
  | .present reason => "failed to present frame: " ++ reason

inductive Fate where
  | rendered
  /-- Given up because too many others were waiting. -/
  | shed
  /-- There was no image to render. -/
  | noImage
  | failed
  deriving DecidableEq, Repr

/-- What came of one look at the queue. -/
inductive Outcome where
  /-- There was no frame. -/
  | idle
  /-- A frame was taken out, with `waiting` others left behind it. -/
  | handled (fate : Fate) (seq : Option UInt64) (waiting : Nat)
  deriving DecidableEq, Repr

structure Tally where
  rendered : Nat := 0
  shed : Nat := 0
  noImage : Nat := 0
  failed : Nat := 0
  deriving DecidableEq, Repr

namespace Tally

def count (t : Tally) : Fate → Tally
  | .rendered => { t with rendered := t.rendered + 1 }
  | .shed => { t with shed := t.shed + 1 }
  | .noImage => { t with noImage := t.noImage + 1 }
  | .failed => { t with failed := t.failed + 1 }

def record (t : Tally) : Outcome → Tally
  | .idle => t
  | .handled fate _ _ => t.count fate

/-- The frames of all fates. -/
def total (t : Tally) : Nat := t.rendered + t.shed + t.noImage + t.failed

@[simp] theorem total_count (t : Tally) (fate : Fate) : (t.count fate).total = t.total + 1 := by
  cases fate <;> simp only [count, total] <;> omega

@[simp] theorem record_idle (t : Tally) : t.record .idle = t := rfl

@[simp] theorem total_record_handled (t : Tally) (fate : Fate) (seq : Option UInt64)
    (waiting : Nat) : (t.record (.handled fate seq waiting)).total = t.total + 1 :=
  total_count t fate

end Tally

end SheddingQueue
