import SheddingQueue.Frame
import SheddingQueue.Json.Reading

/-!
# Frames from messages

A message is a JSON object. Its member `seqId` may be any value but numbers the frame only if it
is a natural number; its member `frameData` is text whose bytes are the encoded image, or null;
all its other members become fields. `seqId` and `frameData` may each be there once.

`Draft.ofMembers` collects what members that were read say of a frame, and `Frame.ofMessage` makes
the frame that a message describes. The first complaint in the order of the text wins, be it about a
member or about the JSON.
-/

namespace SheddingQueue

open Json

def seqKey : String := "seqId"

def imageKey : String := "frameData"

/-- What the members so far say. -/
structure Draft where
  /-- The number in a `seqId`, if there was such a member. -/
  seq : Option (Option UInt64) := none
  /-- The image in a `frameData`, if there was such a member. -/
  image : Option (Option (List UInt8)) := none
  fields : Members := []
  deriving Repr

namespace Draft

/-- What is wrong with a further member, as its key alone tells. -/
def clash? (d : Draft) (key : String) : Option Cause :=
  if (key = seqKey ∧ d.seq.isSome) ∨ (key = imageKey ∧ d.image.isSome) then
    some (.repeatedKey key)
  else none

/-- The image that text stands for: none if it is empty. -/
def imageOf (s : String) : Option (List UInt8) :=
  if s.isEmpty then none else some (Utf8.encode s)

def notText (found : Found) : Cause := .wrongType found "a string"

def setImage (d : Draft) : Value → Except Cause Draft
  | .scalar .null => .ok { d with image := some none }
  | .scalar (.text s) => .ok { d with image := some (imageOf s) }
  | .scalar s => .error (notText (.scalar s))
  | .list _ => .error (notText .sequence)
  | .object _ => .error (notText .map)

/-- What a member with a new key adds. -/
def set (d : Draft) (key : String) (value : Value) : Except Cause Draft :=
  if key = seqKey then .ok { d with seq := some value.natural? }
  else if key = imageKey then d.setImage value
  else .ok { d with fields := d.fields.insert key value }

def add (d : Draft) (m : Member) : Except Fault Draft :=
  match d.clash? m.key.name with
  | some cause => .error ⟨cause, m.key.complaint⟩
  | none =>
    match d.set m.key.name m.value with
    | .ok d => .ok d
    | .error cause => .error ⟨cause, m.complaint⟩

/-- What is wrong with a member that is not complete. -/
def pendingFault? (d : Draft) (p : Pending) : Option Fault :=
  match d.clash? p.key.name, p.opened with
  | some cause, _ => some ⟨cause, p.key.complaint⟩
  | none, some (found, complaint) =>
    if p.key.name = imageKey then some ⟨notText found, complaint⟩ else none
  | none, none => none

def frame (d : Draft) : Frame := ⟨d.seq.join, d.image.join, d.fields⟩

def ofMembers (members : List Member) : Except Fault Draft := members.foldlM add {}

/-- Where complaints belong makes no difference if there are none. -/
theorem add_of_entry {d d' : Draft} {m m' : Member} (h : m.entry = m'.entry)
    (hadd : d.add m = .ok d') : d.add m' = .ok d' := by
  obtain ⟨hname, hvalue⟩ : m.key.name = m'.key.name ∧ m.value = m'.value := Prod.mk.inj h
  rw [add] at hadd ⊢
  rw [← hname, ← hvalue]
  cases hclash : d.clash? m.key.name with
  | some cause =>
    rw [hclash] at hadd
    cases hadd
  | none =>
    rw [hclash] at hadd
    cases hset : d.set m.key.name m.value with
    | error cause =>
      rw [hset] at hadd
      cases hadd
    | ok d =>
      rw [hset] at hadd
      exact hadd

theorem foldlM_of_entries {d d' : Draft} {ms ms' : List Member}
    (h : ms.map Member.entry = ms'.map Member.entry) (hadd : ms.foldlM add d = .ok d') :
    ms'.foldlM add d = .ok d' := by
  induction ms generalizing ms' d with
  | nil =>
    obtain rfl := List.map_eq_nil_iff.mp h.symm
    exact hadd
  | cons m ms ih =>
    obtain ⟨m', ms', rfl, hm, hms⟩ := List.map_eq_cons_iff.mp h.symm
    rw [List.foldlM_cons] at hadd ⊢
    cases hfirst : d.add m with
    | error fault =>
      rw [hfirst] at hadd
      cases hadd
    | ok d₁ =>
      rw [hfirst] at hadd
      rw [add_of_entry hm.symm hfirst]
      exact ih hms.symm hadd

end Draft

namespace Frame

def ofReading (r : Reading) : Except Fault Frame := do
  let d ← Draft.ofMembers r.members
  match r.pending.bind d.pendingFault?, r.fault with
  | some fault, _ => .error fault
  | none, some fault => .error fault
  | none, none => .ok d.frame

/-- The frame that a message describes. -/
def ofMessage (bytes : List UInt8) : Except Fault Frame :=
  match Document.read bytes with
  | .object reading => ofReading reading
  | .other found complaint => .error ⟨.wrongType found "struct WireMessage", complaint⟩
  | .none fault => .error fault

end Frame

/-- A message that describes no frame, and why. -/
structure Malformed where
  message : List UInt8
  fault : Fault
  deriving Repr

def Malformed.text (m : Malformed) : String :=
  "malformed message payload: " ++ m.fault.message m.message

/-- What a frame can be given as. -/
inductive Source where
  | frame (f : Frame)
  | message (bytes : List UInt8)
  deriving Repr

def Source.frame? : Source → Except Malformed Frame
  | .frame f => .ok f
  | .message bytes => (Frame.ofMessage bytes).mapError (⟨bytes, ·⟩)

end SheddingQueue
