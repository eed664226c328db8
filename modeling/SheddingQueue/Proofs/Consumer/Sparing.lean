import Mathlib.Data.List.Forall2
import SheddingQueue.Proofs.Session.Intact

/-!
# Renderers that leave out what came to nothing

It is on record what a renderer did with the queue, so another renderer can do the same again,
without going by the answers. It may even leave out what came to nothing: frames that were refused,
and takes that found no frame. Nobody but the record can tell. The outcomes are the same, and so are
the events, and the queue that is left.
-/

namespace SheddingQueue

/-- A frame that was offered in vain. -/
def Exchange.given? : Exchange → Option Frame
  | .offered f (.refused ..) => some f
  | _ => none

/-- A frame that was handed back. -/
def Exchange.returned? : Exchange → Option Frame
  | .offered _ (.refused _ f) => some f
  | _ => none

/-- The frames that a renderer offered in vain, and those that it was handed back. -/
def Call.given (c : Call) : List Frame := c.exchanges.filterMap Exchange.given?

@[inherit_doc Call.given]
def Call.returned (c : Call) : List Frame := c.exchanges.filterMap Exchange.returned?

/-- Whether an exchange came to nothing. -/
def Exchange.isVain : Exchange → Bool
  | .offered _ (.refused ..) | .took none => true
  | _ => false

/-- The second list has the exchanges of the first, but for some that came to nothing. -/
inductive Exchange.Spares : List Exchange → List Exchange → Prop where
  | nil : Spares [] []
  | keep (e : Exchange) {es es' : List Exchange} : Spares es es' → Spares (e :: es) (e :: es')
  | spare {e : Exchange} {es es' : List Exchange} : e.isVain = true → Spares es es' →
      Spares (e :: es) es'

/-- The second call is the first one, but for some exchanges that came to nothing. -/
def Call.Spares (c c' : Call) : Prop :=
  ∃ es, Exchange.Spares c.exchanges es ∧ c' = { c with exchanges := es }

/-- The plan to do the same again, whatever the answers, and to end with the same verdict. -/
def Interaction.again (verdict : Except RenderFault Unit) : List Exchange → Interaction
  | [] => .finish verdict
  | .offered f _ :: es => .offer f fun _ => again verdict es
  | .took _ :: es => .take fun _ => again verdict es
  | .closed :: es => .close (again verdict es)
  | .cancelled :: es => .cancel (again verdict es)

/-- The renderer that does the same again in each call, whatever it is called with. -/
def Renderer.again (calls : List Call) : Renderer := fun earlier _ _ =>
  match calls[earlier.length]? with
  | some call => .again call.verdict call.exchanges
  | none => .finish (.ok ())

variable {n : Nat}

/-! ## One call -/

namespace Interaction

variable {q : Queue Frame} {cancelled : Bool} {es : List Exchange}

/-- A frame that is refused comes back. -/
theorem returned_perform (i : Interaction) (q : Queue Frame) (cancelled : Bool) :
    ∀ e ∈ (i.perform q cancelled).exchanges, e.returned? = e.given? := by
  induction i generalizing q cancelled with
  | finish verdict => exact List.forall_mem_nil _
  | offer f next ih =>
    rw [perform]
    rcases ho : q.offer f with ⟨answer, after⟩
    refine List.forall_mem_cons.mpr ⟨?_, ih answer after cancelled⟩
    cases answer with
    | accepted => rfl
    | refused reason g => exact congrArg some (Queue.eq_of_offer_refused ho).1
  | take next ih => exact List.forall_mem_cons.mpr ⟨rfl, ih _ q.take.2 cancelled⟩
  | close next ih => exact List.forall_mem_cons.mpr ⟨rfl, ih q.close cancelled⟩
  | cancel next ih => exact List.forall_mem_cons.mpr ⟨rfl, ih q true⟩

/-- To do the same again, without what came to nothing, leads to the same end. -/
theorem perform_again {i : Interaction} (hq : q.Intact n)
    (h : Exchange.Spares (i.perform q cancelled).exchanges es) :
    (again (i.perform q cancelled).verdict es).perform q cancelled =
      { i.perform q cancelled with exchanges := es } := by
  -- whatever is left out, the rest of the plan finds the same queue
  induction i generalizing q cancelled es with
  | finish verdict =>
    cases h
    rfl
  | offer f next ih =>
    have hafter := hq.offer f
    rw [perform] at h ⊢
    rcases ho : q.offer f with ⟨answer, after⟩
    rw [ho] at h hafter
    cases h with
    | keep _ h =>
      have hrest := ih answer hafter h
      simp only [Result.after, again, perform, ho, hrest]
    | spare hvain h =>
      cases answer with
      | accepted => cases hvain
      | refused reason g =>
        obtain ⟨-, rfl⟩ := Queue.eq_of_offer_refused ho
        exact ih _ hq h
  | take next ih =>
    have hafter := hq.take
    rw [perform] at h ⊢
    rcases ht : q.take with ⟨found, after⟩
    rw [ht] at h hafter
    cases h with
    | keep _ h =>
      have hrest := ih found hafter h
      simp only [Result.after, again, perform, ht, hrest]
    | spare hvain h =>
      cases found with
      | some f => cases hvain
      | none =>
        cases hq.eq_of_take_none ht
        exact ih _ hq h
  | close next ih =>
    cases h with
    | keep _ h =>
      have hrest := ih hq.close h
      simp only [Result.after, again, perform, hrest]
    | spare hvain => cases hvain
  | cancel next ih =>
    cases h with
    | keep _ h =>
      have hrest := ih hq h
      simp only [Result.after, again, perform, hrest]
    | spare hvain => cases hvain

end Interaction

/-! ## The consumer -/

namespace Consumer

variable {threshold : Nat} {renderer : Renderer} {s t : State} {f : Frame}

/-- The calls by which one state goes beyond another. -/
structure Since (s t : State) (calls : List Call) : Prop where
  calls_eq : t.calls = s.calls ++ calls
  /-- A frame that is refused comes back. -/
  returned : ∀ call ∈ calls, call.returned = call.given

theorem Since.refl (s : State) : Since s s [] := ⟨(List.append_nil _).symm, List.forall_mem_nil _⟩

theorem Since.trans {u : State} {calls later : List Call} (h : Since s t calls)
    (h' : Since t u later) : Since s u (calls ++ later) := by
  refine ⟨by rw [h'.calls_eq, h.calls_eq, List.append_assoc], ?_⟩
  exact List.forall_mem_append.mpr ⟨h.returned, h'.returned⟩

/-- The same state with other calls on record. -/
def State.recorded (s : State) (calls : List Call) : State := { s with calls := calls }

/-- What has led from one state to another leads there again with a renderer that leaves out what
came to nothing. `redo` says that it has done so with some renderer, between some states. Earlier
and later calls of this renderer do not matter. -/
def Repeats (s t : State) (redo : Renderer → State → State → Prop) : Prop :=
  ∃ calls, Since s t calls ∧ ∀ calls' done later, List.Forall₂ Call.Spares calls calls' →
    done.length = s.calls.length →
    redo (.again (done ++ calls' ++ later)) (s.recorded done) (t.recorded (done ++ calls'))

theorem Repeats.refl {redo : Renderer → State → State → Prop}
    (h : ∀ renderer done, redo renderer (s.recorded done) (s.recorded done)) :
    Repeats s s redo := by
  refine ⟨[], .refl s, ?_⟩
  rintro _ done later ⟨⟩ -
  rw [List.append_nil]
  exact h _ done

theorem Repeats.trans {u : State} {redo redo' redo'' : Renderer → State → State → Prop}
    (h : Repeats s t redo) (h' : Repeats t u redo')
    (hredo : ∀ renderer done t' u', redo renderer (s.recorded done) t' → redo' renderer t' u' →
      redo'' renderer (s.recorded done) u') : Repeats s u redo'' := by
  obtain ⟨calls, hsince, hfirst⟩ := h
  obtain ⟨calls', hsince', hsecond⟩ := h'
  refine ⟨calls ++ calls', hsince.trans hsince', ?_⟩
  intro all done later hall hdone
  -- the new record is divided where the second part begins
  have hflip := hall.flip
  have hcalls := (List.forall₂_take_append _ _ _ hflip).flip
  have hcalls' := (List.forall₂_drop_append _ _ _ hflip).flip
  have hlength : (done ++ all.take calls.length).length = t.calls.length := by
    rw [hsince.calls_eq, List.length_append, List.length_append, hdone,
      ← hcalls.length_eq]
  have h := hfirst _ done (all.drop calls.length ++ later) hcalls hdone
  have h' := hsecond _ (done ++ all.take calls.length) later hcalls' hlength
  rw [← List.append_assoc, List.append_assoc done, List.take_append_drop] at h
  rw [List.append_assoc done, List.take_append_drop] at h'
  exact hredo _ _ _ _ h h'

/-- A consumer that began without a record had no other calls than those that are on record now. -/
theorem Repeats.fresh {redo : Renderer → State → State → Prop} {calls : List Call}
    (h : Repeats s t redo) (hs : s.calls = []) (hcalls : List.Forall₂ Call.Spares t.calls calls) :
    redo (.again calls) s (t.recorded calls) ∧
      t.calls.flatMap Call.returned = t.calls.flatMap Call.given := by
  obtain ⟨new, hsince, hredo⟩ := h
  have hnew : t.calls = new := by rw [hsince.calls_eq, hs, List.nil_append]
  rw [hnew] at hcalls ⊢
  have hsame := hredo calls [] [] hcalls (by rw [hs])
  rw [List.nil_append, List.append_nil] at hsame
  refine ⟨?_, List.flatMap_congr hsince.returned⟩
  have hempty : s.recorded [] = s := by rw [State.recorded, ← hs]
  rwa [hempty] at hsame

theorem handle_repeats (threshold : Nat) (renderer : Renderer) (hq : s.queue.Intact n) (f : Frame) :
    let r := handle threshold renderer s f
    Repeats s r.state fun renderer' s' t' =>
      handle threshold renderer' s' f = { r with state := t' } := by
  cases hj : judge threshold s.queue.count f with
  | shed =>
    rw [handle_of_shed hj]
    exact .refl fun renderer' done => handle_of_shed (s := s.recorded done) hj renderer'
  | skip =>
    rw [handle_of_skip hj]
    exact .refl fun renderer' done => handle_of_skip (s := s.recorded done) hj renderer'
  | render image =>
    rw [handle_of_render hj]
    have hreturned :=
      Interaction.returned_perform (renderer s.calls f image) s.queue s.cancelled
    refine ⟨_, ⟨rfl, List.forall_mem_singleton.mpr (List.filterMap_congr hreturned)⟩, ?_⟩
    intro _ done later hcalls hdone
    obtain ⟨_, _, ⟨es, hes, rfl⟩, hnone, rfl⟩ := List.forall₂_cons_left_iff.mp hcalls
    cases hnone
    have hplan (call : Call) : Renderer.again (done ++ [call] ++ later) done f image =
        .again call.verdict call.exchanges := by
      simp [Renderer.again]
    have hsame := Interaction.perform_again hq hes
    rw [handle_of_render (s := s.recorded done) hj]
    simp only [State.recorded, hplan, hsame]

theorem step_repeats (threshold : Nat) (renderer : Renderer) (hq : s.queue.Intact n) :
    let r := step threshold renderer s
    Repeats s r.state fun renderer' s' t' =>
      step threshold renderer' s' = { r with state := t' } := by
  rcases ht : s.queue.take with ⟨found, q⟩
  cases found with
  | none =>
    cases hq.eq_of_take_none ht
    rw [step_of_none ht]
    exact .refl fun renderer' done => step_of_none (s := s.recorded done) ht threshold renderer'
  | some f =>
    have hafter := hq.take
    rw [ht] at hafter
    rw [step_of_some ht]
    obtain ⟨calls, hsince, hredo⟩ :=
      handle_repeats (s := { s with queue := q }) threshold renderer hafter f
    refine ⟨calls, ⟨hsince.calls_eq, hsince.returned⟩, ?_⟩
    intro calls' done later hcalls hdone
    rw [step_of_some (s := s.recorded done) ht]
    exact hredo calls' done later hcalls hdone

variable {halt : Queue Frame → Bool} {bound : Nat} {tally : Tally} {r : Run}

theorem loop_repeats (hq : s.queue.Intact n)
    (h : loop threshold renderer halt bound s tally = some r) :
    Repeats s r.state fun renderer' s' t' =>
      loop threshold renderer' halt bound s' tally = some { r with state := t' } := by
  induction bound generalizing s tally r with
  | zero =>
    rw [loop] at h
    split at h
    · rename_i hstops
      cases h
      exact .refl fun renderer' done => if_pos hstops
    · cases h
  | succ bound ih =>
    rw [loop] at h
    split at h
    · rename_i hstops
      cases h
      exact .refl fun renderer' done => if_pos hstops
    · rename_i hgoes
      obtain ⟨xs, hxs⟩ := hq
      obtain ⟨ys, hys, -⟩ := Deal.contents_of_run (step_deals threshold renderer s).run hxs
      obtain ⟨rest, hrest, rfl⟩ := Option.map_eq_some_iff.mp h
      have hlater := ih ⟨ys, hys⟩ hrest
      refine (step_repeats threshold renderer ⟨xs, hxs⟩).trans hlater ?_
      intro renderer' done t' u' hstep hloop
      have hgoes' : ¬ stops halt (s.recorded done) = true := hgoes
      rw [loop, if_neg hgoes', hstep]
      dsimp only
      rw [hloop]
      rfl

theorem run_repeats {capacity : Nat} (hq : s.queue.Intact n)
    (h : run capacity threshold renderer halt bound s = some r) :
    Repeats s r.state fun renderer' s' t' =>
      run capacity threshold renderer' halt bound s' = some { r with state := t' } := by
  obtain ⟨r, hr, rfl⟩ := Option.map_eq_some_iff.mp h
  obtain ⟨calls, hsince, hredo⟩ := loop_repeats hq hr
  refine ⟨calls, hsince, ?_⟩
  intro calls' done later hcalls hdone
  rw [run, hredo calls' done later hcalls hdone]
  rfl

end Consumer

end SheddingQueue
