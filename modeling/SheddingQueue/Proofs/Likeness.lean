import Mathlib.Data.List.Forall2
import SheddingQueue.Proofs.Producer.Attempts

/-!
# Queues that cannot be told apart

Two runs have frames that correspond: they have the same image, but sequence numbers and fields of
their own. A `Pairing` says which ones do. Queues are `Alike` if they hold corresponding items in
the same order, and then offers, takes and whole calls of producers get the same answers from
both. What is reported meanwhile is the same but for the sequence numbers: `SameEvents`.
-/

namespace SheddingQueue

/-- Which frames of two runs correspond. -/
structure Pairing where
  pairs : Frame → Frame → Prop
  image_eq : ∀ {f g : Frame}, pairs f g → f.image = g.image

theorem rel_map {α β γ δ : Type} {R : α → β → Prop} {T : γ → δ → Prop} {a : Option α} {b : Option β}
    {f : α → γ} {g : β → δ} (h : Option.Rel R a b) (hfg : ∀ x y, R x y → T (f x) (g y)) :
    Option.Rel T (a.map f) (b.map g) := by
  cases h with
  | none => exact .none
  | some hxy => exact .some (hfg _ _ hxy)

/-! ## Reports -/

/-- A notice without the sequence number of its frame. -/
def Notice.unnumbered : Notice → Notice
  | .enqueued _ => .enqueued none
  | .dropped _ => .dropped none
  | .rejected _ => .rejected none
  | .retrying _ => .retrying none
  | .shed _ waiting => .shed none waiting
  | .processing _ waiting => .processing none waiting
  | .noImage _ => .noImage none
  | .renderFailed _ fault => .renderFailed none fault
  | n => n

def Event.unnumbered : Event → Event
  | .noted n => .noted n.unnumbered
  | .counted c => .counted c

def Outcome.unnumbered : Outcome → Outcome
  | .handled fate _ waiting => .handled fate none waiting
  | .idle => .idle

/-- What the log shows of a notice: level, origin, text and fields. The value of the field
`sequence_id` is left out. -/
def Notice.masked (n : Notice) : Level × Reporter × String × List (String × String) :=
  (n.level, n.reporter, n.text, n.fields.map fun field =>
    if field.1 = "sequence_id" then (field.1, "") else field)

/-- The sequence number of a frame shows in no other field. -/
theorem Notice.masked_unnumbered (n : Notice) : n.unnumbered.masked = n.masked := by
  cases n <;> simp [unnumbered, masked, fields, seqField, level, reporter, text]

/-- The events of two runs are the same but for the sequence numbers. -/
def SameEvents (es fs : List Event) : Prop := es.map Event.unnumbered = fs.map Event.unnumbered

namespace SameEvents

variable {es es' fs fs' : List Event}

theorem append (h : SameEvents es fs) (h' : SameEvents es' fs') :
    SameEvents (es ++ es') (fs ++ fs') := by
  rw [SameEvents, List.map_append, List.map_append, h, h']

theorem cons {e f : Event} (he : e.unnumbered = f.unnumbered) (h : SameEvents es fs) :
    SameEvents (e :: es) (f :: fs) := by
  rw [SameEvents, List.map_cons, List.map_cons, he, h]

/-- Each counter goes up equally often. -/
theorem increments_eq (h : SameEvents es fs) (c : Counter) :
    increments c es = increments c fs := by
  have hunnumbered (es : List Event) :
      increments c (es.map Event.unnumbered) = increments c es := by
    rw [increments, List.count, List.countP_map]
    refine List.countP_congr fun e _ => ?_
    cases e <;> simp [Event.unnumbered]
  rw [← hunnumbered es, h, hunnumbered]

/-- The log has the same records, but for the sequence numbers. -/
theorem records_eq (h : SameEvents es fs) :
    (notices es).map Notice.masked = (notices fs).map Notice.masked := by
  have hunnumbered (es : List Event) :
      (notices (es.map Event.unnumbered)).map Notice.masked = (notices es).map Notice.masked := by
    rw [notices, List.filterMap_map, List.map_filterMap, notices, List.map_filterMap]
    congr 1
    funext e
    cases e with
    | noted n => exact congrArg some n.masked_unnumbered
    | counted c => rfl
  rw [← hunnumbered es, h, hunnumbered]

end SameEvents

/-! ## Queues -/

/-- The same answer to the offers of two items that correspond. -/
inductive Admission.Alike {α : Type} (pairs : α → α → Prop) : Admission α → Admission α → Prop where
  | accepted : Alike pairs .accepted .accepted
  | refused (reason : Refusal) {x y : α} (h : pairs x y) :
      Alike pairs (.refused reason x) (.refused reason y)

namespace Queue

variable {α : Type} {pairs : α → α → Prop} {q q' : Queue α}

/-- Queues of one size, both open or both closed, that hold corresponding items in the same
order. -/
structure Alike (pairs : α → α → Prop) (q q' : Queue α) : Prop where
  contents : ∃ n xs ys, q.Stores n xs ∧ q'.Stores n ys ∧ List.Forall₂ pairs xs ys
  closed_eq : q.closed = q'.closed

namespace Alike

theorem count_eq (h : q.Alike pairs q') : q.count = q'.count := by
  obtain ⟨n, xs, ys, hq, hq', hxs⟩ := h.contents
  rw [hq.count_eq, hq'.count_eq, hxs.length_eq]

theorem isEmpty_eq (h : q.Alike pairs q') : q.isEmpty = q'.isEmpty := by
  obtain ⟨n, xs, ys, hq, hq', hxs⟩ := h.contents
  rw [hq.isEmpty_eq, hq'.isEmpty_eq]
  cases hxs <;> rfl

theorem offerWaits_eq (h : q.Alike pairs q') : q.offerWaits = q'.offerWaits := by
  obtain ⟨n, xs, ys, hq, hq', hxs⟩ := h.contents
  rw [Bool.eq_iff_iff, hq.offerWaits_iff, hq'.offerWaits_iff, hxs.length_eq, h.closed_eq]

theorem takeWaits_eq (h : q.Alike pairs q') : q.takeWaits = q'.takeWaits := by
  show (q.isEmpty && !q.closed) = (q'.isEmpty && !q'.closed)
  rw [h.isEmpty_eq, h.closed_eq]

theorem close (h : q.Alike pairs q') : q.close.Alike pairs q'.close := by
  obtain ⟨n, xs, ys, hq, hq', hxs⟩ := h.contents
  exact ⟨⟨n, xs, ys, hq.close, hq'.close, hxs⟩, rfl⟩

/-- Offers of corresponding items get the same answer. -/
theorem offer_cases (h : q.Alike pairs q') {x y : α} (hxy : pairs x y) :
    (∃ reason, q.offer x = (.refused reason x, q) ∧ q'.offer y = (.refused reason y, q')) ∨
    (∃ r r', q.offer x = (.accepted, r) ∧ q'.offer y = (.accepted, r') ∧ r.Alike pairs r') := by
  obtain ⟨n, xs, ys, hq, hq', hxs⟩ := h.contents
  have hlength := hxs.length_eq
  have hclosed := h.closed_eq
  rcases hq.offer_cases x with ⟨hc, ho⟩ | ⟨hc, hfull, ho⟩ | ⟨hc, hroom, r, ho, hr, hs⟩
  · exact .inl ⟨.closed, ho, Queue.offer_of_closed (hclosed.symm.trans hc) y⟩
  · rcases hq'.offer_cases y with ⟨hc', -⟩ | ⟨-, -, ho'⟩ | ⟨-, hroom', -⟩
    · simp [hclosed, hc'] at hc
    · exact .inl ⟨.full, ho, ho'⟩
    · omega
  · rcases hq'.offer_cases y with ⟨hc', -⟩ | ⟨-, hfull', -⟩ | ⟨-, -, r', ho', hr', hs'⟩
    · simp [hclosed, hc'] at hc
    · omega
    · have hxs : List.Forall₂ pairs (xs ++ [x]) (ys ++ [y]) := List.rel_append hxs (.cons hxy .nil)
      exact .inr ⟨r, r', ho, ho', ⟨n, _, _, hs, hs', hxs⟩, hr.trans hr'.symm⟩

theorem offer (h : q.Alike pairs q') {x y : α} (hxy : pairs x y) :
    (q.offer x).1.Alike pairs (q'.offer y).1 ∧ (q.offer x).2.Alike pairs (q'.offer y).2 := by
  rcases h.offer_cases hxy with ⟨reason, ho, ho'⟩ | ⟨r, r', ho, ho', hr⟩
  · rw [ho, ho']
    exact ⟨.refused reason hxy, h⟩
  · rw [ho, ho']
    exact ⟨.accepted, hr⟩

/-- Takes find nothing in both queues, or items that correspond. -/
theorem take_cases (h : q.Alike pairs q') :
    (q.take = (none, q) ∧ q'.take = (none, q')) ∨
    (∃ x y r r', q.take = (some x, r) ∧ q'.take = (some y, r') ∧ pairs x y ∧
      r.Alike pairs r') := by
  obtain ⟨n, xs, ys, hq, hq', hxs⟩ := h.contents
  rcases hq.take_cases with ⟨rfl, ht⟩ | ⟨x, xs, r, rfl, ht, hc, hr⟩ <;>
    rcases hq'.take_cases with ⟨rfl, ht'⟩ | ⟨y, ys, r', rfl, ht', hc', hr'⟩
  · exact .inl ⟨ht, ht'⟩
  · cases hxs
  · cases hxs
  · obtain ⟨hxy, hxs⟩ := List.forall₂_cons.mp hxs
    have hclosed : r.closed = r'.closed := (hc.trans h.closed_eq).trans hc'.symm
    exact .inr ⟨x, y, r, r', ht, ht', hxy, ⟨n, xs, ys, hr, hr', hxs⟩, hclosed⟩

theorem take (h : q.Alike pairs q') :
    Option.Rel pairs q.take.1 q'.take.1 ∧ q.take.2.Alike pairs q'.take.2 := by
  rcases h.take_cases with ⟨ht, ht'⟩ | ⟨x, y, r, r', ht, ht', hxy, hr⟩
  · rw [ht, ht']
    exact ⟨.none, h⟩
  · rw [ht, ht']
    exact ⟨.some hxy, hr⟩

end Alike

end Queue

/-! ## Producers -/

namespace Producer

variable {p : Pairing} {q q' : Queue Frame} {f g : Frame} {seq seq' : Option UInt64}

/-- What others do around an attempt of one producer or the other. -/
structure Others.Alike (p : Pairing) (o o' : Others) : Prop where
  before : ∀ q q' : Queue Frame, q.Alike p.pairs q' → (o.before q).Alike p.pairs (o'.before q')
  during : ∀ q q' : Queue Frame, q.Alike p.pairs q' → (o.during q).Alike p.pairs (o'.during q')

structure Result.Alike (p : Pairing) (r r' : Result) : Prop where
  answer : r.answer.Alike p.pairs r'.answer
  queue : r.queue.Alike p.pairs r'.queue
  events : SameEvents r.events r'.events

theorem report_alike {answer answer' : Admission Frame} (h : answer.Alike p.pairs answer')
    (seq seq' : Option UInt64) : SameEvents (report seq answer) (report seq' answer') := by
  cases h with
  | accepted => rfl
  | refused reason h => cases reason <;> rfl

theorem decide_alike (hq : q.Alike p.pairs q') (hfg : p.pairs f g) (seq seq' : Option UInt64) :
    (decide seq (q.offer f)).Alike p (decide seq' (q'.offer g)) := by
  obtain ⟨hanswer, hafter⟩ := hq.offer hfg
  exact ⟨hanswer, hafter, report_alike hanswer seq seq'⟩

/-- The queues that two attempts act on. -/
theorem Others.Alike.lead {o o' : Others} (h : o.Alike p o') (hq : q.Alike p.pairs q') :
    (o.lead q).Alike p.pairs (o'.lead q') := by
  have hbefore := h.before q q' hq
  rw [Others.lead, Others.lead, hbefore.offerWaits_eq]
  split
  · exact h.during _ _ hbefore
  · exact hbefore

/-- As long as one of two calls goes on, so does the other. -/
theorem retry_alike {os os' : List Others} (hos : List.Forall₂ (Others.Alike p) os os')
    (hq : q.Alike p.pairs q') (hfg : p.pairs f g) (seq seq' : Option UInt64) :
    Option.Rel (Result.Alike p) (retry seq os q f) (retry seq' os' q' g) := by
  induction hos generalizing q q' f g with
  | nil =>
    rw [retry, retry, hq.offerWaits_eq]
    split
    · exact .none
    · exact .some (decide_alike hq hfg seq seq')
  | @cons o o' os os' hothers _ ih =>
    have hlead := hothers.lead hq
    rw [retry, retry, offerWithin_lead, offerWithin_lead]
    rcases hlead.offer_cases hfg with ⟨reason, ho, ho'⟩ | ⟨r, r', ho, ho', hr⟩
    · rw [ho, ho']
      cases reason with
      | closed => exact .some ⟨.refused .closed hfg, hlead, rfl⟩
      | full =>
        exact rel_map (ih hlead hfg) fun r r' hr => ⟨hr.answer, hr.queue, hr.events.cons rfl⟩
    · rw [ho, ho']
      exact .some ⟨.accepted, hr, rfl⟩

/-- Calls of producers with the same policy. -/
theorem enqueue_alike (policy : Policy) {os os' : List Others}
    (hos : List.Forall₂ (Others.Alike p) os os') (hq : q.Alike p.pairs q') (hfg : p.pairs f g) :
    Option.Rel (Result.Alike p) (enqueue policy os q f) (enqueue policy os' q' g) := by
  cases policy with
  | drop => exact .some (decide_alike hq hfg _ _)
  | retry => exact retry_alike hos hq hfg _ _

end Producer

end SheddingQueue
