import SheddingQueue.Crowd.History
import SheddingQueue.Worker

/-!
# A consumer among others

A shift is one run of the consumer while any number of other threads call its queue, which may be
producers, other consumers, or whatever the renderer itself does to the queue. The consumer takes
its turns as `Worker.turn` says, and the others take their steps as `Crowd.Step` says, in any
order. At any time someone may ask the consumer to stop.

The consumer wakes others like any thread does. This does not appear here: one who waits in a
crowd may stop waiting at any time, and one who is awake may be as slow as it likes.
-/

namespace SheddingQueue

/-- The frame that a worker has taken out and not handled yet. -/
def Worker.inHand (w : Worker) : Option Frame :=
  match w.phase with
  | .holding f => some f
  | .poised | .askClosed | .askEmpty | .reach | .wake | .finished => none

/-- What becomes of the frame that a worker handles in its next turn, if it handles one. -/
def Worker.handles (threshold : Nat) (verdict : Verdict) (q : Queue Frame) (w : Worker) :
    Option (Frame × Fate) :=
  w.inHand.map fun f => (f, (Worker.settle threshold q.count verdict f).1)

structure Shift where
  crowd : Crowd Frame
  worker : Worker := {}
  cancelled : Bool := false

namespace Shift

/-- What happens in a step: one of the others does something, the worker is asked to stop, or it
takes a turn, in which it may handle a frame. -/
inductive Move where
  | others (e : Nat × Crowd.Deed Frame)
  | cancel
  | turn (handled : Option (Frame × Fate))
  deriving Repr

/-- The turn of the worker. The renderer may judge each frame differently: `renderer` is given how
many frames have been handled before. -/
def work (threshold : Nat) (renderer : Nat → Verdict) (s : Shift) : Shift :=
  let (w, q, _) := s.worker.turn threshold (renderer s.worker.tally.total) s.cancelled s.crowd.queue
  { s with worker := w, crowd := { s.crowd with queue := q } }

def handles (threshold : Nat) (renderer : Nat → Verdict) (s : Shift) : Option (Frame × Fate) :=
  s.worker.handles threshold (renderer s.worker.tally.total) s.crowd.queue

inductive Step (threshold : Nat) (renderer : Nat → Verdict) : Shift → Move → Shift → Prop where
  | others {s : Shift} {e : Nat × Crowd.Deed Frame} {c : Crowd Frame}
      (h : Crowd.Step s.crowd e c) : Step threshold renderer s (.others e) { s with crowd := c }
  | cancel {s : Shift} : Step threshold renderer s .cancel { s with cancelled := true }
  | turn {s : Shift} :
      Step threshold renderer s (.turn (s.handles threshold renderer)) (s.work threshold renderer)

namespace Move

def other? : Move → Option (Nat × Crowd.Deed Frame)
  | .others e => some e
  | .cancel | .turn _ => none

def handled? : Move → Option (Frame × Fate)
  | .turn h => h
  | .others _ | .cancel => none

/-- The frame that one of the others stores in a step. -/
def stored? (l : Move) : Option Frame := l.other?.bind fun e => e.2.stored?

/-- The frame that one of the others takes out in a step. -/
def lost? (l : Move) : Option Frame := l.other?.bind fun e => e.2.taken?

end Move

def others (t : List Move) : List (Nat × Crowd.Deed Frame) := t.filterMap Move.other?

/-- The frames that the worker has handled, in this order, with what has become of them. -/
def handled (t : List Move) : List (Frame × Fate) := t.filterMap Move.handled?

/-- The frames that have been stored during a shift, in this order. -/
def accepted (t : List Move) : List Frame := (Crowd.pushes (others t)).map Prod.snd

theorem others_append (t u : List Move) : others (t ++ u) = others t ++ others u :=
  List.filterMap_append

theorem others_map (u : List (Nat × Crowd.Deed Frame)) : others (u.map .others) = u := by
  rw [others, List.filterMap_map]
  exact List.filterMap_some

/-- What a crowd can do, it can do during a shift, between two turns of the worker. -/
theorem others_run {c c' : Crowd Frame} {u : List (Nat × Crowd.Deed Frame)} (h : Run Crowd.Step c u c')
    (threshold : Nat) (renderer : Nat → Verdict) (w : Worker) (cancelled : Bool) :
    Run (Step threshold renderer) ⟨c, w, cancelled⟩ (u.map .others) ⟨c', w, cancelled⟩ := by
  induction h with
  | start => exact .start
  | next _ hs ih =>
    rw [List.map_append]
    exact ih.next (.others hs)

theorem handled_snoc (t : List Move) (l : Move) :
    handled (t ++ [l]) = handled t ++ l.handled?.toList := by
  rw [handled, List.filterMap_append]
  cases h : l.handled? <;> simp [handled, h]

theorem accepted_append (t u : List Move) : accepted (t ++ u) = accepted t ++ accepted u := by
  rw [accepted, others_append, Crowd.pushes_append, List.map_append]
  rfl

theorem accepted_snoc (t : List Move) (l : Move) :
    accepted (t ++ [l]) = accepted t ++ l.stored?.toList := by
  rw [accepted_append]
  congr 1
  rw [accepted, others, Move.stored?]
  cases h : l.other? with
  | none => simp [h, Crowd.pushes]
  | some e => cases he : e.2.stored? <;> simp [h, Crowd.pushes, he]

end Shift

end SheddingQueue
