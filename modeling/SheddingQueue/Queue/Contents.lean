import SheddingQueue.Queue
import SheddingQueue.Ring.Contents

/-!
# What a queue stores

`q.Stores n xs` says that the queue has `n` slots and that exactly the items `xs` are in it, the
oldest first. For each operation there is one lemma that says all it can do, in terms of `xs`.
-/

namespace SheddingQueue

namespace Queue

variable {α : Type}

/-- The queue has `n` slots and stores exactly `xs`, the oldest first. -/
structure Stores (q : Queue α) (n : Nat) (xs : List α) : Prop where
  size_eq : q.ring.size = n
  holds : q.ring.Holds xs

theorem stores_empty {n : Nat} (h : 0 < n) : (empty n : Queue α).Stores n [] :=
  ⟨by simp [empty, Ring.empty, Ring.size], Ring.holds_empty h⟩

namespace Stores

variable {q : Queue α} {n : Nat} {xs : List α}

theorem length_lt (h : q.Stores n xs) : xs.length < n :=
  h.size_eq ▸ h.holds.length_lt

theorem toList_eq (h : q.Stores n xs) : q.toList = xs := h.holds.toList_eq

theorem count_eq (h : q.Stores n xs) : q.count = xs.length := h.holds.count_eq

theorem isEmpty_eq (h : q.Stores n xs) : q.isEmpty = xs.isEmpty := h.holds.isEmpty_eq

theorem close (h : q.Stores n xs) : q.close.Stores n xs := ⟨h.size_eq, h.holds⟩

/-- An offer waits for room exactly if the queue is open and only the gap is left. -/
theorem offerWaits_iff (h : q.Stores n xs) :
    q.offerWaits = true ↔ xs.length + 1 = n ∧ q.closed = false := by
  rw [offerWaits, Bool.and_eq_true, h.holds.isFull_iff, h.size_eq, Bool.not_eq_true']

/-- A take waits exactly if the queue is open and nothing is in it. -/
theorem takeWaits_iff (h : q.Stores n xs) :
    q.takeWaits = true ↔ xs = [] ∧ q.closed = false := by
  rw [takeWaits, Bool.and_eq_true, h.holds.isEmpty_eq, List.isEmpty_iff, Bool.not_eq_true']

/-- All that an offer can do: a closed queue rejects, a full one has no room, and any other one
stores the item behind the others. -/
theorem offer_cases (h : q.Stores n xs) (x : α) :
    (q.closed = true ∧ q.offer x = (.refused .closed x, q)) ∨
    (q.closed = false ∧ xs.length + 1 = n ∧ q.offer x = (.refused .full x, q)) ∨
    (q.closed = false ∧ xs.length + 1 < n ∧
      ∃ r, q.offer x = (.accepted, r) ∧ r.closed = false ∧ r.Stores n (xs ++ [x])) := by
  have hlt := h.length_lt
  by_cases hc : q.closed = true
  · exact .inl ⟨hc, offer_of_closed hc x⟩
  · have hopen : q.closed = false := by simpa using hc
    rcases Nat.lt_or_ge (xs.length + 1) n with hroom | hfull
    · obtain ⟨s, hs, hsize, hholds⟩ := h.holds.push? (h.size_eq ▸ hroom) x
      refine .inr (.inr ⟨hopen, hroom, { q with ring := s }, ?_, hopen, ?_, hholds⟩)
      · simp [offer, hopen, hs]
      · exact hsize.trans h.size_eq
    · have hlen : xs.length + 1 = n := by omega
      refine .inr (.inl ⟨hopen, hlen, ?_⟩)
      simp [offer, hopen, h.holds.push?_eq_none (h.size_eq ▸ hlen) x]

/-- All that a take can do: find nothing, or remove the oldest item. -/
theorem take_cases (h : q.Stores n xs) :
    (xs = [] ∧ q.take = (none, q)) ∨
    (∃ x ys r, xs = x :: ys ∧ q.take = (some x, r) ∧ r.closed = q.closed ∧ r.Stores n ys) := by
  cases xs with
  | nil =>
    refine .inl ⟨rfl, ?_⟩
    rw [take, h.holds.pop_nil]
  | cons x ys =>
    obtain ⟨s, hs, hsize, hholds⟩ := h.holds.pop_cons
    refine .inr ⟨x, ys, { q with ring := s }, rfl, ?_, rfl, hsize.trans h.size_eq, hholds⟩
    rw [take, hs]

end Stores

end Queue

end SheddingQueue
