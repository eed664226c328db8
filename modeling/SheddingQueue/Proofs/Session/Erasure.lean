import SheddingQueue.Proofs.Session.Diagnostics
import SheddingQueue.Proofs.Session.Failures

/-!
# Sessions without the calls that come to nothing

Since a call that comes to nothing leaves the queue as it was, it can be left out of a session, and
whatever else is done there comes to the same. A call that is only part of an operation can be left
out as well: the operation is replaced by the rest of it.
-/

namespace SheddingQueue.Session

variable {s : Session} {op : Operation}

theorem performed_cons (s : Session) (op : Operation) (ops : List Operation) :
    s.performed (op :: ops) = s.perform op :: (s.next op).performed ops := rfl

/-- An operation that changes nothing can be left out. -/
theorem performed_eraseIdx {ops : List Operation} {i : Nat} (hi : ops[i]? = some op)
    (hop : (s.after (ops.take i)).next op = s.after (ops.take i)) :
    s.performed (ops.eraseIdx i) = (s.performed ops).eraseIdx i ∧
      s.after (ops.eraseIdx i) = s.after ops := by
  induction ops generalizing s i with
  | nil => cases hi
  | cons first ops ih =>
    cases i with
    | zero =>
      cases hi
      have hsame : s.next op = s := hop
      rw [performed_cons, hsame, List.eraseIdx_cons_zero, List.eraseIdx_cons_zero]
      exact ⟨rfl, (congrArg (fun t : Session => t.after ops) hsame).symm⟩
    | succ i =>
      obtain ⟨hperformed, hafter⟩ := ih (s := s.next first) hi hop
      rw [List.eraseIdx_cons_succ, performed_cons, hperformed]
      exact ⟨rfl, hafter⟩

/-- An operation can be replaced by one that leaves the same session behind. -/
theorem performed_set {ops : List Operation} {i : Nat} {rest : Operation} (hi : ops[i]? = some op)
    (hop : (s.after (ops.take i)).next rest = (s.after (ops.take i)).next op) :
    s.performed (ops.set i rest) =
        (s.performed ops).set i ((s.after (ops.take i)).perform rest) ∧
      s.after (ops.set i rest) = s.after ops := by
  induction ops generalizing s i with
  | nil => cases hi
  | cons first ops ih =>
    cases i with
    | zero =>
      cases hi
      have hsame : s.next rest = s.next op := hop
      rw [List.set_cons_zero, performed_cons, hsame]
      exact ⟨rfl, congrArg (fun t : Session => t.after ops) hsame⟩
    | succ i =>
      obtain ⟨hperformed, hafter⟩ := ih (s := s.next first) hi hop
      rw [List.set_cons_succ, performed_cons, hperformed]
      exact ⟨rfl, hafter⟩

/-- Calls that are refused, or find nothing, leave no trace. Such a call leaves the queue as it was,
with its slots, its indices and its flag, and hands back the frame it was given; and without it the
other operations of the session give the same answers and leave the same queue behind. If it is only
part of an operation, the same holds once the operation is replaced by the rest of it. -/
theorem failures_leave_no_trace {st : Settings} {b : Built Frame} (hb : st.build Frame = .ok b)
    {ops : List Operation} {i : Nat} (hi : ops[i]? = some op) :
    let start := ofBuilt b
    let s := start.after (ops.take i)
    let reply := (s.perform op).1
    (op.Vain reply →
      s.next op = s ∧ reply.returned = op.given reply ∧
      start.performed (ops.eraseIdx i) = (start.performed ops).eraseIdx i ∧
      start.after (ops.eraseIdx i) = start.after ops) ∧
    ∀ rest left, op.Rest s.queue.closed reply rest left →
      s.next rest = s.next op ∧ (s.perform rest).1 = left ∧
      reply.returned = op.given reply ∧
      start.performed (ops.set i rest) = (start.performed ops).set i (s.perform rest) ∧
      start.after (ops.set i rest) = start.after ops := by
  intro start s reply
  have hintact : s.queue.Intact b.capacity :=
    intact_after ⟨[], (Settings.stores_of_build hb).1⟩ (ops.take i)
  have hcapacity : 2 ≤ b.capacity := (Settings.capacity_of_build hb).1
  constructor
  · intro hvain
    obtain ⟨hsame, hback⟩ := traceless_of_vain hintact hvain
    exact ⟨hsame, hback, performed_eraseIdx hi hsame⟩
  · intro rest left hrest
    obtain ⟨hnext, hleft, hback⟩ := replaces_of_rest hintact hcapacity hrest
    exact ⟨hnext, hleft, hback, performed_set hi hnext⟩

/-- The only usable slot is taken, so an offer is refused, and a producer that waits for room is
refused when the queue is closed. The renderer has no luck either: it offers a frame and wants to
take one out. -/
theorem failures_leave_no_trace_in_closing : ∃ b,
    ({ capacity := 2, policy := .patient } : Settings).build Frame = .ok b ∧
    let start := ofBuilt b
    let source (k : Nat) : Source := .frame (specimen k)
    let renderer : Renderer := fun _ _ _ =>
      .offer (specimen 4) fun _ => .take fun _ => .close (.finish (.ok ()))
    let call (es : List Exchange) : Call := ⟨specimen 1, [0xff, 0xd8, 0xff], es, .ok ()⟩
    let ops : List Operation := [.enqueue 0 (source 1), .offer 0 (source 2),
      .blockedEnqueue 0 (source 3) true .closeQueue, .step renderer, .take]
    ((start.performed ops).map (·.1) = [.done, .refused .full (specimen 2),
      .released none (.refused .closed (specimen 3)),
      .outcome (.handled .rendered (some 1) 0)
        [call [.offered (specimen 4) (.refused .closed (specimen 4)), .took none, .closed]],
      .took none]) ∧
    start.performed (ops.eraseIdx 1) = (start.performed ops).eraseIdx 1 ∧
    start.performed (ops.eraseIdx 4) = (start.performed ops).eraseIdx 4 ∧
    (let s := start.after (ops.take 2)
    (s.perform .closeQueue).1 = .done ∧
      start.performed (ops.set 2 .closeQueue) =
        (start.performed ops).set 2 (s.perform .closeQueue)) ∧
    (let s := start.after (ops.take 3)
    let spared : Operation := .step (.again [call [.closed]])
    (s.perform spared).1 = .outcome (.handled .rendered (some 1) 0) [call [.closed]] ∧
      start.performed (ops.set 3 spared) = (start.performed ops).set 3 (s.perform spared)) := by
  have hb : ({ capacity := 2, policy := .patient } : Settings).build Frame =
    .ok ⟨_, _, _, _, _⟩ := rfl
  refine ⟨_, hb, ?_⟩
  dsimp only
  refine ⟨rfl, ?_, ?_, ?_, ?_⟩
  · exact ((failures_leave_no_trace hb rfl).1 .offer).2.2.1
  · exact ((failures_leave_no_trace hb rfl).1 .take).2.2.1
  · have hne : Release.closeQueue ≠ .take := nofun
    exact ⟨rfl, ((failures_leave_no_trace hb rfl).2 _ _ (.close hne)).2.2.2.1⟩
  · have hes : Exchange.Spares [.offered (specimen 4) (.refused .closed (specimen 4)), .took none,
      .closed] [.closed] := .spare rfl (.spare rfl (.keep _ .nil))
    exact ⟨rfl, ((failures_leave_no_trace hb rfl).2 _ _
      (.step (.cons ⟨_, hes, rfl⟩ .nil))).2.2.2.1⟩

end SheddingQueue.Session
