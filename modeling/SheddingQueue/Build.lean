import SheddingQueue.Journal

/-!
# Making a queue

`Settings.build` checks the settings and makes the empty queue and what its consumer works with.
-/

namespace SheddingQueue

/-- A new queue with what was settled for it. -/
structure Built (α : Type) where
  queue : Queue α
  capacity : Nat
  policy : Policy
  watch : Watch
  events : List Event
  deriving Repr

namespace Settings

/-- The warning that the threshold cannot be reached, if it cannot. -/
def warnings (s : Settings) : List Event :=
  if s.neverSheds then [.noted (.neverSheds s.sheddingAt s.usable)] else []

def build (α : Type) (s : Settings) : Except SettingsError (Built α) :=
  match s.fault? with
  | some e => .error e
  | none => .ok ⟨Queue.empty s.capacity, s.capacity, s.policy, s.watch, s.warnings⟩

end Settings

end SheddingQueue
