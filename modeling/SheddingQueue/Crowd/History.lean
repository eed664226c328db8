import SheddingQueue.Crowd

/-!
# The history of a crowd

What has been stored, taken, asked and answered is read off the labels of a run, each of which
names a thread and what it did.
-/

namespace SheddingQueue

namespace Crowd

variable {α β : Type}

namespace Deed

def stored? : Deed α → Option α
  | .offered x .accepted => some x
  | _ => none

def taken? : Deed α → Option α
  | .took x => x
  | _ => none

/-- What a take has found. -/
def found? : Deed α → Option (Option α)
  | .took x => some x
  | _ => none

def sent? : Deed α → Option α
  | .asks r => r.item?
  | _ => none

/-- The answer that settles a call, and the item that was offered then. -/
def reply? : Deed α → Option (α × Admission α)
  | .offered x answer => some (x, answer)
  | _ => none

def findsFull : Deed α → Bool
  | .offered _ (.refused .full _) | .retried _ => true
  | _ => false

/-- Whether a deed is done outside the lock, or gives it up. -/
def quiet : Deed α → Bool
  | .asks _ | .parks | .leaves | .notifies | .hails => true
  | .offered _ _ | .retried _ | .took _ | .closed => false

theorem stored?_of_quiet {d : Deed α} (h : d.quiet = true) : d.stored? = none := by
  cases d <;> first | rfl | cases h

theorem taken?_of_quiet {d : Deed α} (h : d.quiet = true) : d.taken? = none := by
  cases d <;> first | rfl | cases h

end Deed

/-- What is marked with the number of one thread. -/
def share (i : Nat) (t : List (Nat × β)) : List β :=
  t.filterMap fun e => if e.1 = i then some e.2 else none

/-- The stored items in the order in which they were stored, with the threads that stored them. -/
def pushes (t : List (Nat × Deed α)) : List (Nat × α) :=
  t.filterMap fun e => e.2.stored?.map fun x => (e.1, x)

def taken (t : List (Nat × Deed α)) : List α := t.filterMap fun e => e.2.taken?

/-- The items that a thread has called the queue for to store, in the order of the calls. -/
def sent (i : Nat) (t : List (Nat × Deed α)) : List α := (share i t).filterMap Deed.sent?

/-- What settled these calls, with the item that was offered then. -/
def replies (i : Nat) (t : List (Nat × Deed α)) : List (α × Admission α) :=
  (share i t).filterMap Deed.reply?

/-- The calls of a thread that are settled: what it sent, and what it was answered. -/
def calls (i : Nat) (t : List (Nat × Deed α)) : List (α × Admission α) :=
  (sent i t).zip ((replies i t).map Prod.snd)

def admitted? : α × Admission α → Option α
  | (x, .accepted) => some x
  | (_, .refused _ _) => none

/-- Whether the threads do nothing but offer items, or hand them over as the policy says. -/
def Enqueues (policy : Policy) (t : List (Nat × Deed α)) : Prop :=
  ∀ e ∈ t, ∀ r, e.2 = .asks r → ∃ x, r = Request.offer x ∨ r = Request.enqueue policy x

theorem Enqueues.nil {policy : Policy} : Enqueues policy ([] : List (Nat × Deed α)) := by
  intro e he
  cases he

theorem Enqueues.append {policy : Policy} {t u : List (Nat × Deed α)}
    (ht : Enqueues policy t) (hu : Enqueues policy u) : Enqueues policy (t ++ u) := by
  intro e he
  rcases List.mem_append.mp he with he | he
  · exact ht e he
  · exact hu e he

variable (i j : Nat) (t u : List (Nat × Deed α)) (d : Deed α)

theorem share_snoc (t : List (Nat × β)) (b : β) :
    share i (t ++ [(j, b)]) = share i t ++ if j = i then [b] else [] := by
  rw [share, List.filterMap_append]
  by_cases h : j = i <;> simp [share, h]

theorem pushes_append : pushes (t ++ u) = pushes t ++ pushes u := List.filterMap_append

theorem taken_append : taken (t ++ u) = taken t ++ taken u := List.filterMap_append

theorem pushes_snoc :
    pushes (t ++ [(i, d)]) = pushes t ++ d.stored?.toList.map fun x => (i, x) := by
  rw [pushes_append]
  cases h : d.stored? <;> simp [pushes, h]

theorem taken_snoc : taken (t ++ [(i, d)]) = taken t ++ d.taken?.toList := by
  rw [taken_append]
  cases h : d.taken? <;> simp [taken, h]

theorem sent_snoc :
    sent i (t ++ [(j, d)]) = sent i t ++ if j = i then d.sent?.toList else [] := by
  rw [sent, share_snoc, List.filterMap_append]
  by_cases hij : j = i
  · cases h : d.sent? <;> simp [sent, hij, h]
  · simp [sent, hij]

theorem replies_snoc :
    replies i (t ++ [(j, d)]) = replies i t ++ if j = i then d.reply?.toList else [] := by
  rw [replies, share_snoc, List.filterMap_append]
  by_cases hij : j = i
  · cases h : d.reply? <;> simp [replies, hij, h]
  · simp [replies, hij]

/-- A deed stores an item exactly if it answers a call with acceptance. -/
theorem stored?_eq : d.stored? = d.reply?.bind admitted? := by
  cases d with
  | offered x answer => cases answer <;> rfl
  | _ => rfl

theorem share_pushes : share i (pushes t) = (replies i t).filterMap admitted? := by
  simp only [share, pushes, replies, List.filterMap_filterMap]
  congr 1
  funext e
  rw [stored?_eq]
  by_cases h : e.1 = i
  · rw [if_pos h, Option.bind_some]
    cases e.2.reply?.bind admitted? <;> simp [h]
  · rw [if_neg h, Option.bind_none]
    cases e.2.reply?.bind admitted? <;> simp [h]

end Crowd

end SheddingQueue
