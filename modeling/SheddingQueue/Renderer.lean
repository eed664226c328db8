import SheddingQueue.Outcome
import SheddingQueue.Queue

/-!
# Renderers

A renderer is asked to render one frame after another. While it does so it may use the queue
itself: offer frames, take some out, close it; and it may ask for the consumer to stop. An
`Interaction` is what it does during one call, step by step, each step free to depend on the
answers so far; a `Renderer` chooses the interaction for a frame, and may go by all its earlier
calls.

A renderer has only the calls that are neither counted nor logged: it offers by `Queue.offer`, and
not by `Producer.enqueue`, which follows a policy, may wait for room, and counts and logs what
becomes of a frame. To enqueue frames is for the producers of a `Session`.
-/

namespace SheddingQueue

/-- One call of a renderer, as a plan. -/
inductive Interaction where
  | finish (verdict : Except RenderFault Unit)
  | offer (f : Frame) (next : Admission Frame → Interaction)
  | take (next : Option Frame → Interaction)
  | close (next : Interaction)
  /-- Ask for the consumer to stop. -/
  | cancel (next : Interaction)

/-- What a renderer did to the queue, with the answer. -/
inductive Exchange where
  | offered (f : Frame) (answer : Admission Frame)
  | took (f : Option Frame)
  | closed
  | cancelled
  deriving Repr

/-- One call of a renderer, as it went. -/
structure Call where
  frame : Frame
  image : List UInt8
  exchanges : List Exchange
  verdict : Except RenderFault Unit

/-- Chooses what to do with a frame and its image, given the earlier calls. -/
abbrev Renderer := List Call → Frame → List UInt8 → Interaction

/-- What an interaction comes to. -/
structure Interaction.Result where
  exchanges : List Exchange
  verdict : Except RenderFault Unit
  queue : Queue Frame
  cancelled : Bool

namespace Interaction

/-- The same result after one exchange more. -/
def Result.after (e : Exchange) (r : Result) : Result := { r with exchanges := e :: r.exchanges }

/-- Carry a plan out on a queue with nobody else at work. -/
def perform : Interaction → Queue Frame → Bool → Result
  | .finish verdict, q, cancelled => ⟨[], verdict, q, cancelled⟩
  | .offer f next, q, cancelled =>
    let (answer, q) := q.offer f
    ((next answer).perform q cancelled).after (.offered f answer)
  | .take next, q, cancelled =>
    let (f, q) := q.take
    ((next f).perform q cancelled).after (.took f)
  | .close next, q, cancelled => (next.perform q.close cancelled).after .closed
  | .cancel next, q, _ => (next.perform q true).after .cancelled

/-- Offer frames one after another, whatever the answers. -/
def offerAll : List Frame → Interaction → Interaction
  | [], next => next
  | f :: fs, next => .offer f fun _ => offerAll fs next

/-- Take a number of frames, whether or not there are any. -/
def takeTimes : Nat → Interaction → Interaction
  | 0, next => next
  | n + 1, next => .take fun _ => takeTimes n next

end Interaction

namespace Renderer

/-- Accepts everything. -/
def accepting : Renderer := fun _ _ _ => .finish (.ok ())

/-- Fails always, in the same way. -/
def failing (fault : RenderFault) : Renderer := fun _ _ _ => .finish (.error fault)

end Renderer

/-- What a scripted renderer does in one call. -/
structure Cue where
  offers : List Frame := []
  takes : Nat := 0
  close : Bool := false
  cancel : Bool := false
  fault : Option RenderFault := none

/-- Offers, takes, closing, cancelling and the verdict, in this order. -/
def Cue.interaction (c : Cue) : Interaction :=
  let finish := Interaction.finish (c.fault.elim (.ok ()) .error)
  let cancel := if c.cancel then Interaction.cancel finish else finish
  let close := if c.close then Interaction.close cancel else cancel
  Interaction.offerAll c.offers (Interaction.takeTimes c.takes close)

/-- Follows a script, one cue for each call, and accepts everything after its end. -/
def Renderer.scripted (script : List Cue) : Renderer :=
  fun earlier _ _ => ((script[earlier.length]?).getD {}).interaction

/-- How many frames a script offers in all. -/
def offersIn (script : List Cue) : Nat := (script.flatMap fun c => c.offers).length

end SheddingQueue
