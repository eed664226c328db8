import SheddingQueue.Ring.Words
import SheddingQueue.Settings

/-!
# Rings as bounded lists

Whatever is pushed to a ring and popped from it, the ring answers like a list that takes items
behind the others as long as there are fewer than it has slots for, the gap apart.
`Ring.Represents` says how the items of the list lie in the slots: they fill the window from the
slot of the oldest item round to the slot that the next one goes to, and nothing else is in any
other slot. `refines_bounded_list` is the main result.
-/

namespace SheddingQueue

namespace Ring

variable {α : Type} {n : Nat} {r : Ring α} {xs : List α}

/-! ## Moves -/

inductive Move (α : Type) where
  | push (x : α)
  | pop
  deriving DecidableEq, Repr

inductive Answer (α : Type) where
  | pushed (stored : Bool)
  | popped (x : Option α)
  deriving DecidableEq, Repr

/-- What a move does to a ring. A ring that has no room is left as it is. -/
def move (r : Ring α) : Move α → Answer α × Ring α
  | .push x =>
    match r.push? x with
    | some s => (.pushed true, s)
    | none => (.pushed false, r)
  | .pop => (.popped r.pop.1, r.pop.2)

/-- What a move does to a list that has room for a number of items. -/
def Move.onList (room : Nat) (xs : List α) : Move α → Answer α × List α
  | .push x => if xs.length < room then (.pushed true, xs ++ [x]) else (.pushed false, xs)
  | .pop => (.popped xs.head?, xs.tail)

/-- Moves one after another: the answers, and what they lead to. -/
def Move.all {σ : Type} (act : σ → Move α → Answer α × σ) : σ → List (Move α) → List (Answer α) × σ
  | s, [] => ([], s)
  | s, m :: ms =>
    let (answer, s) := act s m
    let (answers, s) := Move.all act s ms
    (answer :: answers, s)

theorem Move.all_cons {σ : Type} (act : σ → Move α → Answer α × σ) (s : σ) (m : Move α)
    (ms : List (Move α)) : Move.all act s (m :: ms) =
      ((act s m).1 :: (Move.all act (act s m).2 ms).1, (Move.all act (act s m).2 ms).2) := rfl

/-- The item that a move has stored. -/
def Move.stored? : Move α → Answer α → Option α
  | .push x, .pushed true => some x
  | _, _ => none

/-- The item that a move has taken out. -/
def Answer.taken? : Answer α → Option α
  | .popped x => x
  | .pushed _ => none

/-! ## The window -/

/-- The slots from that of the oldest item up to that of the next one to come, going round. -/
def InWindow (r : Ring α) (i : Nat) : Prop :=
  if r.readAt ≤ r.writeAt then r.readAt ≤ i ∧ i < r.writeAt else r.readAt ≤ i ∨ i < r.writeAt

/-- A ring with `n` slots that stands for the list `xs`. -/
structure Represents (n : Nat) (r : Ring α) (xs : List α) : Prop where
  size_eq : r.slots.size = n
  readAt_lt : r.readAt < n
  writeAt_lt : r.writeAt < n
  filled : ∀ i, i < n → r.InWindow i → ∃ x, r.slots[i]? = some (some x)
  released : ∀ i, i < n → ¬ r.InWindow i → r.slots[i]? = some none
  /-- Going round from the oldest item on, the items come in order. -/
  order : ∀ k (hk : k < xs.length),
    r.InWindow ((r.readAt + k) % n) ∧ r.slots[(r.readAt + k) % n]? = some (some xs[k])
  isEmpty_iff : r.isEmpty = true ↔ xs.length = 0
  isFull_iff : r.isFull = true ↔ xs.length = n - 1
  count_eq : r.count = xs.length
  push_iff : ∀ x, (r.push? x).isSome = true ↔ xs.length < n - 1
  pop_eq : r.pop.1 = xs.head?
  /-- Nothing goes wrong on a machine that counts the slots in words. -/
  isSafe : r.IsSafe

namespace Holds

/-- The slot `i` lies `d` slots behind the oldest item, going round. -/
theorem exists_distance {i : Nat} (hr : r.readAt < r.size) (hi : i < r.size) :
    ∃ d, d < r.size ∧ (r.readAt + d) % r.size = i := by
  by_cases h : r.readAt ≤ i
  · refine ⟨i - r.readAt, by omega, ?_⟩
    rw [mod_of_lt_twice (by omega)]
    split <;> omega
  · refine ⟨i + r.size - r.readAt, by omega, ?_⟩
    rw [mod_of_lt_twice (by omega)]
    split <;> omega

/-- The window is as long as the list. -/
theorem inWindow_iff (h : r.Holds xs) {d : Nat} (hd : d < r.size) :
    r.InWindow ((r.readAt + d) % r.size) ↔ d < xs.length := by
  have hl := h.length_lt
  have hr := h.readAt_lt
  have hw := h.writeAt_eq
  rw [mod_of_lt_twice (by omega)] at hw
  rw [mod_of_lt_twice (by omega), InWindow]
  split at hw <;> split <;> split <;> omega

theorem filled (h : r.Holds xs) {i : Nat} (hi : i < r.size) (hin : r.InWindow i) :
    ∃ x, r.slots[i]? = some (some x) := by
  obtain ⟨d, hd, rfl⟩ := exists_distance h.readAt_lt hi
  have hlt := (h.inWindow_iff hd).mp hin
  exact ⟨xs[d], by rw [h.slots_eq d hd, List.getElem?_eq_getElem hlt]⟩

theorem released (h : r.Holds xs) {i : Nat} (hi : i < r.size) (hout : ¬ r.InWindow i) :
    r.slots[i]? = some none := by
  obtain ⟨d, hd, rfl⟩ := exists_distance h.readAt_lt hi
  have hge : xs.length ≤ d := Nat.le_of_not_lt fun hlt => hout ((h.inWindow_iff hd).mpr hlt)
  rw [h.slots_eq d hd, List.getElem?_eq_none hge]

theorem order (h : r.Holds xs) {k : Nat} (hk : k < xs.length) :
    r.InWindow ((r.readAt + k) % r.size) ∧
      r.slots[(r.readAt + k) % r.size]? = some (some xs[k]) := by
  have hsize : k < r.size := Nat.lt_trans hk h.length_lt
  refine ⟨(h.inWindow_iff hsize).mpr hk, ?_⟩
  rw [h.slots_eq k hsize, List.getElem?_eq_getElem hk]

theorem push_iff (h : r.Holds xs) (x : α) :
    (r.push? x).isSome = true ↔ xs.length < r.size - 1 := by
  have hl := h.length_lt
  by_cases hfull : xs.length + 1 = r.size
  · rw [h.push?_eq_none hfull]
    simp only [Option.isSome_none, Bool.false_eq_true, false_iff]
    omega
  · obtain ⟨s, hs, -⟩ := h.push? (by omega) x
    rw [hs]
    simp only [Option.isSome_some, true_iff]
    omega

theorem pop_eq (h : r.Holds xs) : r.pop.1 = xs.head? := by
  cases xs with
  | nil => rw [h.pop_nil, List.head?_nil]
  | cons x xs =>
    obtain ⟨s, hs, -⟩ := h.pop_cons
    rw [hs, List.head?_cons]

theorem represents (h : r.Holds xs) (hn : r.size < Word.bound) : Represents r.size r xs where
  size_eq := rfl
  readAt_lt := h.readAt_lt
  writeAt_lt := h.writeAt_lt
  filled := fun _ hi => h.filled hi
  released := fun _ hi => h.released hi
  order := fun _ hk => h.order hk
  isEmpty_iff := by rw [h.isEmpty_eq, List.isEmpty_iff, List.length_eq_zero_iff]
  isFull_iff := by
    have hl := h.length_lt
    rw [h.isFull_iff]
    omega
  count_eq := h.count_eq
  push_iff := h.push_iff
  pop_eq := h.pop_eq
  isSafe := h.isSafe hn

/-! ## Moves on both sides -/

/-- A move comes to the same on a ring and on the list that it holds. -/
theorem move (h : r.Holds xs) (m : Move α) :
    (r.move m).1 = (m.onList (r.size - 1) xs).1 ∧ (r.move m).2.size = r.size ∧
      (r.move m).2.Holds (m.onList (r.size - 1) xs).2 := by
  have hl := h.length_lt
  cases m with
  | push x =>
    rw [Ring.move, Move.onList]
    by_cases hroom : xs.length < r.size - 1
    · obtain ⟨s, hs, hsize, hholds⟩ := h.push? (by omega) x
      rw [hs, if_pos hroom]
      exact ⟨rfl, hsize, hholds⟩
    · rw [h.push?_eq_none (by omega), if_neg hroom]
      exact ⟨rfl, rfl, h⟩
  | pop =>
    rw [Ring.move, Move.onList, h.pop_eq]
    cases xs with
    | nil =>
      rw [h.pop_nil]
      exact ⟨rfl, rfl, h⟩
    | cons x xs =>
      obtain ⟨s, hs, hsize, hholds⟩ := h.pop_cons
      rw [hs]
      exact ⟨rfl, hsize, hholds⟩

/-- So do moves one after another. -/
theorem moves (h : r.Holds xs) (ms : List (Move α)) :
    let ring := Move.all Ring.move r ms
    let list := Move.all (Move.onList (r.size - 1)) xs ms
    ring.1 = list.1 ∧ ring.2.size = r.size ∧ ring.2.Holds list.2 := by
  induction ms generalizing r xs with
  | nil => exact ⟨rfl, rfl, h⟩
  | cons m ms ih =>
    obtain ⟨hanswer, hsize, hholds⟩ := h.move m
    obtain ⟨hanswers, hsizes, hend⟩ := ih hholds
    rw [hsize] at hanswers hsizes hend
    rw [Move.all_cons, Move.all_cons]
    refine ⟨?_, hsizes, hend⟩
    rw [hanswer, hanswers]

end Holds

/-! ## The items -/

/-- The items that moves have stored, by their answers. -/
def Move.stored (ms : List (Move α)) (answers : List (Answer α)) : List α :=
  (ms.zip answers).filterMap fun e => e.1.stored? e.2

theorem Move.contents (room : Nat) (xs : List α) (m : Move α) :
    xs ++ (m.stored? (m.onList room xs).1).toList =
      (m.onList room xs).1.taken?.toList ++ (m.onList room xs).2 := by
  cases m with
  | push x =>
    rw [onList]
    split
    · rfl
    · exact List.append_nil xs
  | pop => cases xs <;> simp [onList, stored?, Answer.taken?]

/-- What was in a list, and then what it has stored, is what it has given out, and then what is in
it. -/
theorem Move.contents_all (room : Nat) (xs : List α) (ms : List (Move α)) :
    let list := Move.all (Move.onList room) xs ms
    xs ++ Move.stored ms list.1 = list.1.filterMap Answer.taken? ++ list.2 := by
  induction ms generalizing xs with
  | nil => exact List.append_nil xs
  | cons m ms ih =>
    have hstored (a : Answer α) (as : List (Answer α)) :
        stored (m :: ms) (a :: as) = (m.stored? a).toList ++ stored ms as := by
      cases h : m.stored? a <;> simp [stored, h]
    have htaken (a : Answer α) (as : List (Answer α)) :
        (a :: as).filterMap Answer.taken? = a.taken?.toList ++ as.filterMap Answer.taken? := by
      cases h : a.taken? <;> simp [h]
    rw [Move.all_cons]
    dsimp only
    rw [hstored, htaken, ← List.append_assoc, m.contents, List.append_assoc, ih, List.append_assoc]

/-- Whatever is done to a new ring, it answers like a list with room for as many items as there are
slots, the gap apart. The ring stands for this list, which holds what has been pushed and not yet
popped, in this order. -/
theorem refines_bounded_list (hmin : minCapacity ≤ n) (hmax : n ≤ maxCapacity)
    (ms : List (Move α)) :
    let ring := Move.all Ring.move (empty n) ms
    let list := Move.all (Move.onList (n - 1)) [] ms
    ring.1 = list.1 ∧ Represents n ring.2 list.2 ∧
      Move.stored ms ring.1 = ring.1.filterMap Answer.taken? ++ list.2 := by
  intro ring list
  have hpos : 0 < n := Nat.lt_of_lt_of_le (by decide) hmin
  have hsize : (empty n : Ring α).size = n := Array.size_replicate
  obtain ⟨hanswers, hring, hholds⟩ := (holds_empty hpos).moves ms
  rw [hsize] at hanswers hring hholds
  have hwords : ring.2.size < Word.bound := by
    rw [hring]
    exact Nat.lt_of_le_of_lt hmax (by decide)
  refine ⟨hanswers, ?_, ?_⟩
  · have h := hholds.represents hwords
    rwa [hring] at h
  · have h := Move.contents_all (n - 1) [] ms
    rw [hanswers]
    exact h

/-- Going round in a ring of three slots: the third push finds no room, and the fourth one fills the
last slot while the write index goes back to the first. -/
theorem refines_list_of_three : minCapacity ≤ 3 ∧ 3 ≤ maxCapacity ∧
    let ms : List (Move Nat) := [.push 1, .push 2, .push 3, .pop, .push 4]
    let ring := Move.all Ring.move (empty 3) ms
    ring.1 = [.pushed true, .pushed true, .pushed false, .popped (some 1), .pushed true] ∧
      ring.2 = ⟨#[none, some 2, some 4], 1, 0⟩ ∧ Represents 3 ring.2 [2, 4] := by
  have hmin : minCapacity ≤ 3 := by decide
  have hmax : 3 ≤ maxCapacity := by decide
  refine ⟨hmin, hmax, by decide, by decide, ?_⟩
  exact (refines_bounded_list hmin hmax [.push 1, .push 2, .push 3, .pop, .push 4]).2.1

end Ring

end SheddingQueue
