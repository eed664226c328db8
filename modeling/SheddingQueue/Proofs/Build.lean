import SheddingQueue.Build
import SheddingQueue.Queue.Contents

/-!
# What a queue starts with

A queue that could be made has at least two slots, is open and empty, and its consumer works with
the threshold that was settled. `Settings.build_eq` says all that a successful build gives; the
rest follows from it.
-/

namespace SheddingQueue

variable {α : Type} {st : Settings} {b : Built α}

/-- Whether the log says that the threshold cannot be reached. -/
def Built.warns (b : Built α) : Prop :=
  ∃ note ∈ notices b.events,
    note.text = "shedding threshold can never be reached; no frames will be shed"

namespace Settings

theorem build_eq (h : st.build α = .ok b) :
    st.fault? = none ∧
      b = ⟨Queue.empty st.capacity, st.capacity, st.policy, st.watch, st.warnings⟩ := by
  unfold build at h
  split at h
  · cases h
  · rename_i hf
    exact ⟨hf, (Except.ok.inj h).symm⟩

theorem capacity_of_fault? (h : st.fault? = none) :
    minCapacity ≤ st.capacity ∧ st.capacity ≤ maxCapacity := by
  have hc : ¬(st.capacity < minCapacity ∨ maxCapacity < st.capacity) := by
    intro hc
    rw [fault?, if_pos hc] at h
    cases h
  omega

theorem capacity_of_build (h : st.build α = .ok b) :
    minCapacity ≤ b.capacity ∧ b.capacity ≤ maxCapacity := by
  obtain ⟨hf, rfl⟩ := build_eq h
  exact capacity_of_fault? hf

theorem stores_of_build (h : st.build α = .ok b) :
    b.queue.Stores b.capacity [] ∧ b.queue.closed = false := by
  obtain ⟨hmin, -⟩ := capacity_of_build h
  obtain ⟨-, rfl⟩ := build_eq h
  exact ⟨Queue.stores_empty (Nat.lt_of_lt_of_le (by decide) hmin), rfl⟩

/-- The warning is given as soon as the threshold lies above what is left of a full queue when an
item has been taken. -/
theorem warns_iff (h : st.build α = .ok b) : b.warns ↔ b.capacity ≤ b.watch.threshold + 1 := by
  obtain ⟨-, rfl⟩ := build_eq h
  have hnever : st.neverSheds = true ↔ st.capacity ≤ st.sheddingAt + 1 := by
    rw [neverSheds, decide_eq_true_iff, usable]
    omega
  show _ ↔ st.capacity ≤ st.sheddingAt + 1
  rw [← hnever, Built.warns, warnings]
  by_cases hn : st.neverSheds = true
  · simp [hn, notices, Event.notice?, Notice.text]
  · simp [hn, notices]

end Settings

end SheddingQueue
