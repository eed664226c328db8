import Mathlib.Data.List.Induction
import Mathlib.Data.List.Nodup
import Mathlib.Data.String.Basic
import SheddingQueue.Json.Value

/-!
# Members as they are written and as they are kept

Members are written in any order and a key may be there more than once; they are kept in the order
of their keys, one for each key. What is kept under a key is the last value that is written under
it, and nothing else tells two objects apart.
-/

namespace SheddingQueue.Json

/-- The values under a key, in the order in which they are written. -/
def valuesOf (key : String) (entries : List (String × Value)) : List Value :=
  (entries.filter (·.1 = key)).map Prod.snd

section

variable {key : String} {entries entries' : List (String × Value)}

theorem valuesOf_append : valuesOf key (entries ++ entries') =
    valuesOf key entries ++ valuesOf key entries' := by
  rw [valuesOf, List.filter_append, List.map_append, valuesOf, valuesOf]

theorem valuesOf_single (e : String × Value) :
    valuesOf key [e] = if e.1 = key then [e.2] else [] := by
  rw [valuesOf, List.filter_singleton]
  by_cases h : e.1 = key <;> simp [h]

theorem getLast?_valuesOf (e : String × Value) : (valuesOf key (entries ++ [e])).getLast? =
    if e.1 = key then some e.2 else (valuesOf key entries).getLast? := by
  rw [valuesOf_append, valuesOf_single]
  split
  · exact List.getLast?_concat
  · rw [List.append_nil]

/-- A key is there once at most if it is so far and is no further key unless it is new. -/
theorem length_valuesOf_append (key : String) (entries : List (String × Value))
    (e : String × Value) :
    (valuesOf key (entries ++ [e])).length ≤ 1 ↔
      (valuesOf key entries).length ≤ 1 ∧ (e.1 = key → valuesOf key entries = []) := by
  rw [valuesOf_append, valuesOf_single, List.length_append, ← List.length_eq_zero_iff]
  split
  · next h =>
    rw [List.length_singleton, imp_iff_right h]
    omega
  · next h => simp [h]

theorem forall_mem_valuesOf_append (key : String) (entries : List (String × Value))
    (p : Value → Prop) (e : String × Value) :
    (∀ v ∈ valuesOf key (entries ++ [e]), p v) ↔
      (∀ v ∈ valuesOf key entries, p v) ∧ (e.1 = key → p e.2) := by
  rw [valuesOf_append, valuesOf_single, List.forall_mem_append]
  split
  · next h => simp [h]
  · next h => simp [h]

theorem length_valuesOf : (valuesOf key entries).length = (entries.map Prod.fst).count key := by
  rw [valuesOf, List.length_map, ← List.countP_eq_length_filter, List.count_eq_countP,
    List.countP_map]
  rfl

/-- A value is the only one under a key if it is the last one and there is but one. -/
theorem valuesOf_eq_single_iff {v : Value} (h : (valuesOf key entries).length ≤ 1) :
    valuesOf key entries = [v] ↔ (valuesOf key entries).getLast? = some v := by
  match valuesOf key entries, h with
  | [], _ => simp
  | [w], _ => simp

theorem length_valuesOf_le_one (h : (entries.map Prod.fst).Nodup) :
    (valuesOf key entries).length ≤ 1 := by
  rw [length_valuesOf]
  exact List.nodup_iff_count_le_one.mp h key

/-- If no key is there twice, it makes no difference in which order the members are written. -/
theorem valuesOf_eq_of_perm (h : entries.Perm entries') (hkeys : (entries.map Prod.fst).Nodup) :
    valuesOf key entries = valuesOf key entries' := by
  have hperm : (valuesOf key entries).Perm (valuesOf key entries') := (h.filter _).map _
  have hone : (valuesOf key entries).length ≤ 1 := length_valuesOf_le_one hkeys
  match hvalues : valuesOf key entries, hone with
  | [], _ => rw [hvalues] at hperm; exact hperm.nil_eq
  | [v], _ => rw [hvalues] at hperm; exact hperm.singleton_eq

end

namespace Members

/-- Insert members one after another. -/
def insertAll (ms : Members) (entries : List (String × Value)) : Members :=
  entries.foldl (fun ms m => ms.insert m.1 m.2) ms

theorem insertAll_append_single (ms : Members) (entries : List (String × Value))
    (e : String × Value) :
    ms.insertAll (entries ++ [e]) = (ms.insertAll entries).insert e.1 e.2 := by
  rw [insertAll, List.foldl_append]
  rfl

/-- Of several values that are inserted under one key the last is kept. -/
theorem get?_insertAll (key : String) (ms : Members) (entries : List (String × Value)) :
    (ms.insertAll entries).get? key = (valuesOf key entries).getLast?.or (ms.get? key) := by
  induction entries using List.reverseRecOn with
  | nil => rfl
  | append_singleton entries e ih =>
    rw [insertAll_append_single, get?_insert, getLast?_valuesOf, ih]
    by_cases h : e.1 = key
    · rw [if_pos h.symm, if_pos h, Option.some_or]
    · rw [if_neg (Ne.symm h), if_neg h]

theorem get?_ofList (key : String) (entries : List (String × Value)) :
    (ofList entries).get? key = (valuesOf key entries).getLast? :=
  (get?_insertAll key [] entries).trans Option.or_none

/-- The members are in the order of their keys, and there is one for each key. -/
def Ordered (ms : Members) : Prop := ms.Pairwise (·.1 < ·.1)

theorem mem_insert {key : String} {value : Value} {ms : Members} {m : String × Value}
    (h : m ∈ ms.insert key value) : m = (key, value) ∨ m ∈ ms := by
  induction ms with
  | nil => exact .inl (List.mem_singleton.mp h)
  | cons first rest ih =>
    obtain ⟨k, v⟩ := first
    rw [insert] at h
    split at h
    · exact List.mem_cons.mp h
    split at h
    · exact (List.mem_cons.mp h).imp_right (List.mem_cons_of_mem _)
    · rcases List.mem_cons.mp h with rfl | h
      · exact .inr List.mem_cons_self
      · exact (ih h).imp_right (List.mem_cons_of_mem _)

theorem Ordered.insert {ms : Members} (h : ms.Ordered) (key : String) (value : Value) :
    (ms.insert key value).Ordered := by
  induction ms with
  | nil => exact List.pairwise_singleton _ _
  | cons first rest ih =>
    obtain ⟨k, v⟩ := first
    obtain ⟨hfirst, hrest⟩ := List.pairwise_cons.mp h
    rw [Members.insert]
    split
    · next hlt =>
      refine List.pairwise_cons.mpr ⟨fun m hm => ?_, h⟩
      rcases List.mem_cons.mp hm with rfl | hm
      · exact hlt
      · exact hlt.trans (hfirst m hm)
    split
    · next heq =>
      subst heq
      exact List.pairwise_cons.mpr ⟨hfirst, hrest⟩
    · next hlt hne =>
      refine List.pairwise_cons.mpr ⟨fun m hm => ?_, ih hrest⟩
      rcases mem_insert hm with rfl | hm
      · exact lt_of_le_of_ne (not_lt.mp hlt) (Ne.symm hne)
      · exact hfirst m hm

theorem Ordered.insertAll {ms : Members} (h : ms.Ordered) (entries : List (String × Value)) :
    (ms.insertAll entries).Ordered := by
  induction entries using List.reverseRecOn with
  | nil => exact h
  | append_singleton entries e ih =>
    rw [insertAll_append_single]
    exact ih.insert e.1 e.2

theorem ordered_ofList (entries : List (String × Value)) : (ofList entries).Ordered :=
  Ordered.insertAll .nil entries

theorem mem_insertAll {ms : Members} {entries : List (String × Value)} {m : String × Value}
    (h : m ∈ ms.insertAll entries) : m ∈ entries ∨ m ∈ ms := by
  induction entries using List.reverseRecOn with
  | nil => exact .inr h
  | append_singleton entries e ih =>
    rw [insertAll_append_single] at h
    rcases mem_insert h with rfl | h
    · exact .inl (by simp)
    · exact (ih h).imp_left (List.mem_append_left [e])

theorem mem_ofList {entries : List (String × Value)} {m : String × Value}
    (h : m ∈ ofList entries) : m ∈ entries :=
  (mem_insertAll h).resolve_right List.not_mem_nil

theorem get?_eq_none {key : String} {ms : Members} (h : ∀ m ∈ ms, key < m.1) :
    ms.get? key = none := by
  induction ms with
  | nil => rfl
  | cons first rest ih =>
    rw [get?, if_neg (h first List.mem_cons_self).ne]
    exact ih fun m hm => h m (List.mem_cons_of_mem _ hm)

theorem Ordered.get?_below {key : String} {m : String × Value} {ms : Members}
    (h : Ordered (m :: ms)) (hkey : key < m.1) : get? key (m :: ms) = none := by
  apply get?_eq_none
  intro e he
  rcases List.mem_cons.mp he with rfl | he
  · exact hkey
  · exact hkey.trans (List.rel_of_pairwise_cons h he)

theorem get?_first (m : String × Value) (ms : Members) : get? m.1 (m :: ms) = some m.2 := by
  rw [get?, if_pos rfl]

theorem get?_other {key : String} {m : String × Value} {ms : Members} (h : key ≠ m.1) :
    get? key (m :: ms) = get? key ms := by
  rw [get?, if_neg h]

/-- Members that are in order are known from the values under the keys. -/
theorem Ordered.ext {ms ns : Members} (hms : ms.Ordered) (hns : ns.Ordered)
    (h : ∀ key, ms.get? key = ns.get? key) : ms = ns := by
  induction ms generalizing ns with
  | nil =>
    cases ns with
    | nil => rfl
    | cons n ns => cases (h n.1).trans (get?_first n ns)
  | cons m ms ih =>
    cases ns with
    | nil => cases (h m.1).symm.trans (get?_first m ms)
    | cons n ns =>
      have hkey : m.1 = n.1 := by
        rcases lt_trichotomy m.1 n.1 with hlt | heq | hlt
        · have hnone := (get?_first m ms).symm.trans ((h m.1).trans (hns.get?_below hlt))
          cases hnone
        · exact heq
        · have hnone := (get?_first n ns).symm.trans ((h n.1).symm.trans (hms.get?_below hlt))
          cases hnone
      have hvalue : m.2 = n.2 := by
        have hfirst := h m.1
        rw [get?_first, hkey, get?_first] at hfirst
        exact Option.some.inj hfirst
      have hrest : ms = ns := by
        obtain ⟨hm, hms⟩ := List.pairwise_cons.mp hms
        obtain ⟨hn, hns⟩ := List.pairwise_cons.mp hns
        refine ih hms hns fun key => ?_
        by_cases hfirst : key = m.1
        · rw [get?_eq_none (hfirst ▸ hm), get?_eq_none (hfirst.trans hkey ▸ hn)]
        · rw [← get?_other hfirst, h, get?_other (hkey ▸ hfirst)]
      rw [hrest, Prod.ext hkey hvalue]

end Members

end SheddingQueue.Json
