import SheddingQueue.Ring

/-!
# What a ring holds

`r.Holds xs` says that the ring stores exactly the items `xs`, the oldest first, and that every
other slot is released. A new ring holds nothing; `push?` appends unless all slots but the gap are
taken, `pop` takes the head, and all that a ring shows of itself can be read off `xs`.
-/

namespace SheddingQueue

namespace Ring

variable {α : Type}

/-- The ring stores exactly `xs`: going round from the oldest item on, the slots hold the items of
`xs` in order, and all slots after them are released. -/
structure Holds (r : Ring α) (xs : List α) : Prop where
  length_lt : xs.length < r.size
  readAt_lt : r.readAt < r.size
  writeAt_eq : r.writeAt = (r.readAt + xs.length) % r.size
  slots_eq : ∀ k, k < r.size → r.slots[(r.readAt + k) % r.size]? = some xs[k]?

/-- Going round once is enough. -/
theorem mod_of_lt_twice {i n : Nat} (h : i < n + n) : i % n = if i < n then i else i - n := by
  split
  · exact Nat.mod_eq_of_lt ‹_›
  · rw [Nat.mod_eq_sub_mod (by omega), Nat.mod_eq_of_lt (by omega)]

theorem holds_empty {n : Nat} (h : 0 < n) : (empty n : Ring α).Holds [] where
  length_lt := by simpa [empty, size] using h
  readAt_lt := by simpa [empty, size] using h
  writeAt_eq := by simp [empty]
  slots_eq := by
    intro k hk
    simp only [empty, size, Array.size_replicate, Nat.zero_add] at *
    simp [Nat.mod_eq_of_lt hk, hk]

namespace Holds

variable {r : Ring α} {xs : List α}

theorem writeAt_lt (h : r.Holds xs) : r.writeAt < r.size := by
  rw [h.writeAt_eq]
  exact Nat.mod_lt _ (Nat.lt_of_le_of_lt (Nat.zero_le _) h.length_lt)

theorem isEmpty_eq (h : r.Holds xs) : r.isEmpty = xs.isEmpty := by
  obtain ⟨hl, hr, hw, -⟩ := h
  rw [isEmpty, hw, mod_of_lt_twice (by omega)]
  cases xs with
  | nil => simp_all
  | cons x xs =>
    simp only [List.length_cons, List.isEmpty_cons, beq_eq_false_iff_ne] at *
    split <;> omega

theorem next_writeAt (h : r.Holds xs) :
    r.next r.writeAt = (r.readAt + (xs.length + 1)) % r.size := by
  rw [next, h.writeAt_eq, Nat.mod_add_mod, Nat.add_assoc]

theorem isFull_iff (h : r.Holds xs) : r.isFull = true ↔ xs.length + 1 = r.size := by
  have hn := h.next_writeAt
  obtain ⟨hl, hr, -, -⟩ := h
  rw [isFull, hn, mod_of_lt_twice (by omega), beq_iff_eq]
  split <;> omega

theorem count_eq (h : r.Holds xs) : r.count = xs.length := by
  obtain ⟨hl, hr, hw, -⟩ := h
  rw [mod_of_lt_twice (by omega)] at hw
  unfold count
  split at hw <;> split <;> omega

theorem toList_eq (h : r.Holds xs) : r.toList = xs := by
  have all (ys : List α) (f : Nat → Option α) (hf : ∀ k, k < ys.length → f k = ys[k]?) :
      (List.range ys.length).filterMap f = ys := by
    induction ys generalizing f with
    | nil => rfl
    | cons y ys ih =>
      have hy : f 0 = some y := hf 0 (Nat.zero_lt_succ _)
      rw [List.length_cons, List.range_succ_eq_map, List.filterMap_cons_some hy,
        List.filterMap_map, ih (f ∘ Nat.succ) fun k hk => hf (k + 1) (Nat.succ_lt_succ hk)]
  rw [toList, h.count_eq]
  refine all xs _ fun k hk => ?_
  rw [h.slots_eq k (Nat.lt_trans hk h.length_lt)]
  rfl

theorem push?_eq_none (h : r.Holds xs) (hf : xs.length + 1 = r.size) (x : α) :
    r.push? x = none := by
  rw [push?, if_pos (h.isFull_iff.mpr hf)]

theorem push? (h : r.Holds xs) (hf : xs.length + 1 < r.size) (x : α) :
    ∃ s, r.push? x = some s ∧ s.size = r.size ∧ s.Holds (xs ++ [x]) := by
  have hfull : ¬ r.isFull = true := by rw [h.isFull_iff]; omega
  refine ⟨_, by rw [Ring.push?, if_neg hfull], by simp [size], ?_⟩
  refine ⟨by simpa [size] using hf, by simpa [size] using h.readAt_lt, ?_, ?_⟩
  · simpa [size] using h.next_writeAt
  · intro k hk
    have hk : k < r.size := by simpa [size] using hk
    have hw := h.writeAt_eq
    have := h.readAt_lt
    have := h.length_lt
    simp only [size, Array.size_setIfInBounds]
    change (r.slots.setIfInBounds r.writeAt (some x))[(r.readAt + k) % r.size]? = _
    by_cases hx : k = xs.length
    · subst hx
      simp [← hw, show r.writeAt < r.slots.size from h.writeAt_lt]
    · have hne : r.writeAt ≠ (r.readAt + k) % r.size := by
        rw [hw, mod_of_lt_twice (by omega), mod_of_lt_twice (by omega)]
        split <;> split <;> omega
      rw [Array.getElem?_setIfInBounds_ne hne, h.slots_eq k hk]
      by_cases hlt : k < xs.length
      · rw [List.getElem?_append_left hlt]
      · rw [List.getElem?_eq_none (by omega), List.getElem?_eq_none (by simp; omega)]

theorem pop_nil (h : r.Holds []) : r.pop = (none, r) := by
  rw [pop, if_pos (by simpa using h.isEmpty_eq)]

theorem pop_cons {x : α} (h : r.Holds (x :: xs)) :
    ∃ s, r.pop = (some x, s) ∧ s.size = r.size ∧ s.Holds xs := by
  have hne : ¬ r.isEmpty = true := by rw [h.isEmpty_eq]; simp
  have hr := h.readAt_lt
  have hl : xs.length + 1 < r.size := by simpa using h.length_lt
  have hx : r.slots[r.readAt]? = some (some x) := by
    simpa [Nat.mod_eq_of_lt hr] using h.slots_eq 0 (by omega)
  refine ⟨_, by rw [pop, if_neg hne, hx]; rfl, by simp [size], ?_⟩
  have hround (k : Nat) : (r.next r.readAt + k) % r.size = (r.readAt + (k + 1)) % r.size := by
    rw [next, Nat.mod_add_mod, Nat.add_assoc, Nat.add_comm 1]
  refine ⟨by simp only [size, Array.size_setIfInBounds]; exact Nat.lt_of_succ_lt hl,
    by simp only [size, Array.size_setIfInBounds]; exact Nat.mod_lt _ (by omega), ?_, ?_⟩
  · simp only [size, Array.size_setIfInBounds]
    exact h.writeAt_eq.trans (hround _).symm
  · intro k hk
    have hk : k < r.size := by simpa [size] using hk
    simp only [size, Array.size_setIfInBounds]
    change (r.slots.setIfInBounds r.readAt none)[(r.next r.readAt + k) % r.size]? = _
    rw [hround]
    by_cases hlast : k + 1 = r.size
    · rw [hlast, Nat.add_mod_right, Nat.mod_eq_of_lt hr, List.getElem?_eq_none (by omega)]
      simp [show r.readAt < r.slots.size from hr]
    · have hother : r.readAt ≠ (r.readAt + (k + 1)) % r.size := by
        rw [mod_of_lt_twice (by omega)]
        split <;> omega
      rw [Array.getElem?_setIfInBounds_ne hother, h.slots_eq (k + 1) (by omega)]
      rfl

end Holds

end Ring

end SheddingQueue
