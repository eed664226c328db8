/-!
# Runs

A system is given by its steps: `step a l b` says that one step leads from `a` to `b`, and the
label `l` says what happened in it. A `Run` is any number of steps, one after another. Whatever
is asked about the past of a state is read off the labels, so that states hold no history.
-/

namespace SheddingQueue

/-- A run from `a`: the labels of its steps, the first one first, and where it leads. -/
inductive Run {State Label : Type} (step : State → Label → State → Prop) (a : State) :
    List Label → State → Prop where
  | start : Run step a [] a
  | next {t : List Label} {b c : State} {l : Label} :
      Run step a t b → step b l c → Run step a (t ++ [l]) c

namespace Run

variable {State Label : Type} {step : State → Label → State → Prop} {a b c : State}

theorem single {l : Label} (h : step a l b) : Run step a [l] b :=
  Run.start.next h

theorem append {t u : List Label} (h : Run step a t b) (h' : Run step b u c) :
    Run step a (t ++ u) c := by
  induction h' with
  | start => rwa [List.append_nil]
  | next _ hs ih =>
    rw [← List.append_assoc]
    exact ih.next hs

/-- What every step keeps, a run keeps. -/
theorem keeps {P : State → Prop} (hP : ∀ a l b, step a l b → P a → P b) {t : List Label}
    (h : Run step a t b) (ha : P a) : P b := by
  induction h with
  | start => exact ha
  | next _ hs ih => exact hP _ _ _ hs ih

end Run

end SheddingQueue
