import SheddingQueue.Json.Value

/-!
# Frames

A frame is one unit of work on its way from a producer to the renderer: an optional sequence
number, an optional encoded image, and further fields that nothing here looks at. An image may be
present and yet have no bytes.
-/

namespace SheddingQueue

structure Frame where
  seq : Option UInt64
  image : Option (List UInt8)
  fields : Json.Members
  deriving Repr

namespace Frame

/-- A frame with nothing in it. -/
def blank : Frame := ⟨none, none, []⟩

def numbered (n : UInt64) : Frame := { blank with seq := some n }

def withImage (f : Frame) (bytes : List UInt8) : Frame := { f with image := some bytes }

/-- Set a field. An earlier one of the same key is replaced. -/
def withField (f : Frame) (key : String) (value : Json.Value) : Frame :=
  { f with fields := f.fields.insert key value }

/-- Equality of frames, with fields compared as JSON values. -/
def same (f g : Frame) : Bool :=
  f.seq == g.seq && f.image == g.image && Json.Value.sameMembers f.fields g.fields

instance : BEq Frame := ⟨same⟩

end Frame

end SheddingQueue
