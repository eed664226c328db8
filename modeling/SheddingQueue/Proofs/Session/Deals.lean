import SheddingQueue.Queue.Contents
import SheddingQueue.Session.History

/-!
# What the operations of a session come to

The deals of an operation are a run of its queue, and every counter goes up once for each deal
that it counts: `perform_deals` says both for a single call, with one lemma in `Session.Explained`
for each kind of call, and `deals_after` for a session. What is known of queues and of counters over
a session is drawn from the deals alone.
-/

namespace SheddingQueue

variable {n : Nat} {xs : List Frame} {q q' : Queue Frame} {d : Deal} {ds : List Deal}

/-- How many deals a counter counts. -/
def Deal.bookings (c : Counter) (ds : List Deal) : Nat :=
  ds.countP fun d => d.counter? = some c

@[simp] theorem Deal.bookings_append (c : Counter) (ds es : List Deal) :
    bookings c (ds ++ es) = bookings c ds + bookings c es := List.countP_append

@[simp] theorem Deal.bookings_singleton (c : Counter) (d : Deal) :
    bookings c [d] = if d.counter? = some c then 1 else 0 := by
  simp [bookings, List.countP_singleton]

/-- Deals that lead a queue from one state to another, and are counted as the events say. -/
structure Deal.Explain (q : Queue Frame) (ds : List Deal) (q' : Queue Frame)
    (events : List Event) : Prop where
  run : Run Fits q ds q'
  counted : ∀ c, increments c events = bookings c ds

namespace Deal.Explain

theorem nothing (q : Queue Frame) {events : List Event} (h : ∀ c, increments c events = 0) :
    Explain q [] q events :=
  ⟨.start, h⟩

theorem single {events : List Event} (hd : Fits q d q')
    (h : ∀ c, increments c events = bookings c [d]) : Explain q [d] q' events :=
  ⟨.single hd, h⟩

theorem append {q'' : Queue Frame} {es : List Deal} {events later : List Event}
    (h : Explain q ds q' events) (h' : Explain q' es q'' later) :
    Explain q (ds ++ es) q'' (events ++ later) := by
  refine ⟨h.run.append h'.run, ?_⟩
  intro c
  rw [increments_append, bookings_append, h.counted, h'.counted]

end Deal.Explain

/-! ## The frames -/

namespace Deal

/-- What a deal does to the frames of a queue. -/
theorem Fits.contents (h : Fits q d q') (hq : q.Stores n xs) :
    ∃ ys, q'.Stores n ys ∧ xs ++ [d].filterMap stored? = [d].filterMap taken? ++ ys := by
  have offered {f : Frame} {answer : Admission Frame} (h : q.offer f = (answer, q')) :
      ∃ ys, q'.Stores n ys ∧ xs ++ [Deal.enqueued f answer].filterMap stored? = ys := by
    rcases hq.offer_cases f with ⟨-, ho⟩ | ⟨-, -, ho⟩ | ⟨-, -, r, ho, -, hr⟩ <;> cases ho.symm.trans h
    · exact ⟨xs, hq, List.append_nil xs⟩
    · exact ⟨xs, hq, List.append_nil xs⟩
    · exact ⟨xs ++ [f], hr, rfl⟩
  have took {found : Option Frame} (h : q.take = (found, q')) :
      ∃ ys, q'.Stores n ys ∧ xs = found.toList ++ ys := by
    rcases hq.take_cases with ⟨rfl, ht⟩ | ⟨x, ys, r, rfl, ht, -, hr⟩ <;> cases ht.symm.trans h
    · exact ⟨[], hq, rfl⟩
    · exact ⟨ys, hr, rfl⟩
  have stays {ys : List Frame} (h : ∃ zs, q'.Stores n zs ∧ xs = ys ++ zs) :
      ∃ zs, q'.Stores n zs ∧ xs ++ [] = ys ++ zs := by
    rwa [List.append_nil]
  match d, h with
  | .enqueued f answer, h => exact offered h
  | .looked none outcome, h => exact stays (took h.1)
  | .looked (some _) outcome, h => exact stays (took h.1)
  | .given outcome, ⟨_, h⟩ => exact ⟨xs, h ▸ hq, List.append_nil xs⟩
  | .exchanged (.offered f answer), h => exact offered h
  | .exchanged (.took none), h => exact stays (took h)
  | .exchanged (.took (some _)), h => exact stays (took h)
  | .exchanged .closed, h => exact ⟨xs, h ▸ hq.close, List.append_nil xs⟩
  | .exchanged .cancelled, h => exact ⟨xs, h ▸ hq, List.append_nil xs⟩

/-- What was stored at first and since then has been taken out in the same order, or is still
there. -/
theorem contents_of_run (h : Run Fits q ds q') (hq : q.Stores n xs) :
    ∃ ys, q'.Stores n ys ∧ xs ++ ds.filterMap stored? = ds.filterMap taken? ++ ys := by
  induction h with
  | start => exact ⟨xs, hq, List.append_nil xs⟩
  | @next ds _ _ d _ hd ih =>
    obtain ⟨ys, hys, hxs⟩ := ih
    obtain ⟨zs, hzs, hyz⟩ := hd.contents hys
    refine ⟨zs, hzs, ?_⟩
    calc xs ++ (ds ++ [d]).filterMap stored?
        = (xs ++ ds.filterMap stored?) ++ [d].filterMap stored? := by
          rw [List.filterMap_append, List.append_assoc]
      _ = ds.filterMap taken? ++ ([d].filterMap taken? ++ zs) := by
          rw [hxs, List.append_assoc, hyz]
      _ = (ds ++ [d]).filterMap taken? ++ zs := by
          rw [List.filterMap_append, List.append_assoc]

end Deal

/-! ## The renderer -/

/-- What a renderer does to the queue is counted by nobody. -/
theorem Deal.bookings_calls (c : Counter) (calls : List Call) :
    bookings c (calls.flatMap Call.deals) = 0 := by
  rw [bookings, List.countP_eq_zero]
  intro d hd
  obtain ⟨call, -, hd⟩ := List.mem_flatMap.mp hd
  obtain ⟨e, -, rfl⟩ := List.mem_map.mp hd
  simp [counter?]

theorem Interaction.run_perform (i : Interaction) (q : Queue Frame) (cancelled : Bool) :
    Run Deal.Fits q ((i.perform q cancelled).exchanges.map .exchanged)
      (i.perform q cancelled).queue := by
  induction i generalizing q cancelled with
  | finish verdict => exact .start
  | offer f next ih =>
    have h : Deal.Fits q (.exchanged (.offered f (q.offer f).1)) (q.offer f).2 := rfl
    exact (Run.single h).append (ih _ (q.offer f).2 cancelled)
  | take next ih =>
    have h : Deal.Fits q (.exchanged (.took q.take.1)) q.take.2 := rfl
    exact (Run.single h).append (ih _ q.take.2 cancelled)
  | close next ih =>
    have h : Deal.Fits q (.exchanged .closed) q.close := rfl
    exact (Run.single h).append (ih q.close cancelled)
  | cancel next ih =>
    have h : Deal.Fits q (.exchanged .cancelled) q := rfl
    exact (Run.single h).append (ih q true)

/-! ## The consumer -/

namespace Consumer

variable {threshold : Nat} {renderer : Renderer} {s : State}

/-- What handling a frame adds to a state: the calls of the renderer, with their deals, and what
the counter of the outcome counts. -/
structure Account (s : State) (r : Result) (calls : List Call) : Prop where
  calls_eq : r.state.calls = s.calls ++ calls
  run : SheddingQueue.Run Deal.Fits s.queue (calls.flatMap Call.deals) r.state.queue
  handled : r.outcome ≠ .idle
  counted : ∀ c, increments c r.events = if r.outcome.counter? = some c then 1 else 0

theorem increments_conclude (seq : Option UInt64) (verdict : Except RenderFault Unit)
    (waiting : Nat) (c : Counter) :
    increments c (conclude seq verdict).2 =
      if (Outcome.handled (conclude seq verdict).1 seq waiting).counter? = some c then 1 else 0 := by
  cases verdict <;> cases c <;> rfl

theorem handle_account (threshold : Nat) (renderer : Renderer) (s : State) (f : Frame) :
    ∃ calls, Account s (handle threshold renderer s f) calls := by
  cases hj : judge threshold s.queue.count f with
  | shed =>
    rw [handle_of_shed hj]
    refine ⟨[], (List.append_nil _).symm, .start, nofun, ?_⟩
    intro c
    cases c <;> rfl
  | skip =>
    rw [handle_of_skip hj]
    refine ⟨[], (List.append_nil _).symm, .start, nofun, ?_⟩
    intro c
    cases c <;> rfl
  | render image =>
    rw [handle_of_render hj]
    refine ⟨_, rfl, ?_, nofun, ?_⟩
    · simpa [Call.deals] using
        Interaction.run_perform (renderer s.calls f image) s.queue s.cancelled
    · intro c
      rw [increments_noted, ← increments_conclude]

/-- A frame that is given to the consumer is handled before anything else is done. -/
theorem handle_deals (threshold : Nat) (renderer : Renderer) (s : State) (hs : s.calls = [])
    (f : Frame) :
    let r := handle threshold renderer s f
    Deal.Explain s.queue (.given r.outcome :: r.state.calls.flatMap Call.deals) r.state.queue
      r.events := by
  obtain ⟨calls, h⟩ := handle_account threshold renderer s f
  dsimp only
  rw [h.calls_eq, hs, List.nil_append]
  have hgiven : Deal.Fits s.queue (.given _) s.queue := ⟨h.handled, rfl⟩
  refine ⟨(SheddingQueue.Run.single hgiven).append h.run, ?_⟩
  intro c
  rw [h.counted, ← List.singleton_append, Deal.bookings_append, Deal.bookings_calls, Nat.add_zero,
    Deal.bookings_singleton]
  rfl

/-- A step looks at the queue, and then the renderer may have its call. -/
theorem step_deals (threshold : Nat) (renderer : Renderer) (s : State) :
    Deal.Explain s.queue (deals threshold renderer s) (step threshold renderer s).state.queue
      (step threshold renderer s).events := by
  rw [deals, Queue.takeWithin_id]
  rcases ht : s.queue.take with ⟨found, q⟩
  cases found with
  | none =>
    rw [step_of_none ht, List.drop_length]
    exact .single ⟨ht, by simp⟩ fun c => by cases c <;> rfl
  | some f =>
    rw [step_of_some ht]
    obtain ⟨calls, h⟩ := handle_account threshold renderer { s with queue := q } f
    rw [h.calls_eq, List.drop_left]
    have hlook : Deal.Fits s.queue (.looked (some f) _) q := ⟨ht, by simpa using h.handled⟩
    refine ⟨(SheddingQueue.Run.single hlook).append h.run, ?_⟩
    intro c
    rw [h.counted, ← List.singleton_append, Deal.bookings_append, Deal.bookings_calls, Nat.add_zero]
    rw [Deal.bookings_singleton]
    rfl

theorem loop_deals {halt : Queue Frame → Bool} {bound : Nat} {tally : Tally} {run : Run}
    (h : loop threshold renderer halt bound s tally = some run) :
    Deal.Explain s.queue (dealsWithin threshold renderer halt bound s) run.state.queue
      run.events := by
  induction bound generalizing s tally run with
  | zero =>
    rw [loop] at h
    split at h
    · cases h
      exact .nothing _ fun _ => rfl
    · cases h
  | succ bound ih =>
    rw [loop] at h
    rw [dealsWithin]
    split at h
    · rename_i hstops
      cases h
      rw [if_pos hstops]
      exact .nothing _ fun _ => rfl
    · rename_i hstops
      rw [if_neg hstops]
      obtain ⟨rest, hrest, rfl⟩ := Option.map_eq_some_iff.mp h
      exact (step_deals threshold renderer s).append (ih hrest)

/-- A run has the deals of its steps. The notices at its start and end count nothing. -/
theorem run_deals {capacity : Nat} {halt : Queue Frame → Bool} {bound : Nat} {r : Run}
    (h : run capacity threshold renderer halt bound s = some r) :
    Deal.Explain s.queue (dealsWithin threshold renderer halt bound s) r.state.queue r.events := by
  obtain ⟨r, hr, rfl⟩ := Option.map_eq_some_iff.mp h
  obtain ⟨hrun, hcounted⟩ := loop_deals hr
  refine ⟨hrun, ?_⟩
  intro c
  show increments c (.noted _ :: (r.events ++ [.noted _])) = _
  rw [increments_noted, increments_append, increments_noted, hcounted]
  rfl

end Consumer

/-! ## Sessions -/

namespace Session

variable {s : Session} {op : Operation} {p : Performed}

/-- What an enqueue that is not disturbed comes to. -/
theorem enqueue_cases (s : Session) (f : Frame) (reply : Admission Frame → Reply) :
    s.enqueue [] f reply = (.blocked, s, []) ∨
    s.enqueue [] f reply = (reply (s.queue.offer f).1, { s with queue := (s.queue.offer f).2 },
      Producer.report f.seq (s.queue.offer f).1) := by
  rw [enqueue]
  cases s.policy with
  | drop => exact .inr rfl
  | retry =>
    rw [Producer.enqueue, Producer.retry]
    by_cases h : s.queue.offerWaits = true
    · rw [if_pos h]
      exact .inl rfl
    · rw [if_neg h]
      exact .inr rfl

theorem increments_report (seq : Option UInt64) (f : Frame) (answer : Admission Frame)
    (c : Counter) :
    increments c (Producer.report seq answer) = Deal.bookings c [.enqueued f answer] := by
  rw [Deal.bookings_singleton]
  rcases answer with _ | ⟨_ | _, _⟩ <;> cases c <;> rfl

theorem answer?_answered (answer : Admission Frame) : (answered answer).answer? = some answer := by
  cases answer <;> rfl

/-! ### One operation after another -/

/-- A reply that says that nothing was done, or that the operation does not return. -/
def IsUndone : Reply → Prop
  | .noQueue | .noProducer | .malformed _ | .blocked => True
  | _ => False

theorem dealsFor_of_isUndone {reply : Reply} (h : IsUndone reply) : s.dealsFor op reply = [] := by
  cases reply with
  | noQueue | noProducer | malformed | blocked =>
    cases op <;> simp [dealsFor, answers, Reply.answer?]
  | _ => exact h.elim

theorem answers_of_ok {source : Source} {reply : Reply} {f : Frame} {answer : Admission Frame}
    (hf : source.frame? = .ok f) (ha : reply.answer? = some answer) :
    answers source reply = [(f, answer)] := by
  rw [answers, hf, ha]

/-- What came of an operation is what the deals say for which its reply stands. -/
def Explained (s : Session) (op : Operation) (p : Performed) : Prop :=
  Deal.Explain s.queue (s.dealsFor op p.1) p.2.1.queue p.2.2

namespace Explained

theorem nothing {reply : Reply} {s' : Session} (hr : s.dealsFor op reply = [])
    (hq : s'.queue = s.queue) : s.Explained op (reply, s', []) := by
  rw [Explained, hr, hq]
  exact .nothing _ fun _ => rfl

theorem undone {reply : Reply} (h : IsUndone reply) : s.Explained op (reply, s, []) :=
  nothing (dealsFor_of_isUndone h) rfl

theorem withProducer (producer : Nat) (h : s.Explained op p) :
    s.Explained op (s.withProducer producer p) := by
  rw [Session.withProducer]
  split
  · exact h
  · exact .undone trivial

theorem withQueue (h : s.Explained op p) : s.Explained op (s.withQueue p) := by
  rw [Session.withQueue]
  split
  · exact h
  · exact .undone trivial

theorem withFrame {source : Source} {act : Frame → Performed}
    (h : ∀ f, source.frame? = .ok f → s.Explained op (act f)) :
    s.Explained op (s.withFrame source act) := by
  rw [Session.withFrame]
  split
  · rename_i f hf
    exact h f hf
  · exact .undone trivial

variable (s)

theorem offer (producer : Nat) (source : Source) :
    s.Explained (.offer producer source) (s.perform (.offer producer source)) := by
  refine .withProducer producer (.withFrame fun f hf => ?_)
  rw [Explained, dealsFor, answers_of_ok hf (answer?_answered (s.queue.offer f).1)]
  exact .single rfl fun _ => rfl

theorem enqueue (producer : Nat) (source : Source) :
    s.Explained (.enqueue producer source) (s.perform (.enqueue producer source)) := by
  refine .withProducer producer (.withFrame fun f hf => ?_)
  rcases enqueue_cases s f answered with h | h
  · rw [h]
    exact .undone trivial
  · rw [h, Explained, dealsFor, answers_of_ok hf (answer?_answered (s.queue.offer f).1)]
    exact .single rfl (increments_report f.seq f (s.queue.offer f).1)

theorem take : s.Explained .take (s.perform .take) :=
  .withQueue (.single rfl fun _ => rfl)

theorem takeWithin : s.Explained .takeWithin (s.perform .takeWithin) := by
  rw [perform, Queue.takeWithin_id]
  exact .withQueue (.single rfl fun _ => rfl)

/-- To close the queue is one deal, whoever does it. -/
theorem closing {s' : Session} (hdeals : s.dealsFor op .done = [.exchanged .closed])
    (hq : s'.queue = s.queue.close) : s.Explained op (.done, s', []) := by
  rw [Explained, hdeals, hq]
  exact .single rfl fun _ => rfl

theorem step (renderer : Renderer) : s.Explained (.step renderer) (s.perform (.step renderer)) :=
  .withQueue (Consumer.step_deals s.watch.threshold renderer s.consumerState)

theorem handle (source : Source) (renderer : Renderer) :
    s.Explained (.handle source renderer) (s.perform (.handle source renderer)) :=
  .withQueue (.withFrame fun f _ =>
    Consumer.handle_deals s.watch.threshold renderer s.consumerState rfl f)

theorem run (renderer : Renderer) (stop : StopSignal) (bound : Nat) :
    s.Explained (.run renderer stop bound) (s.perform (.run renderer stop bound)) := by
  refine .withQueue ?_
  rw [Session.run]
  split
  · rename_i r hr
    exact Consumer.run_deals hr
  · exact .undone trivial

end Explained

/-- The deals of a single call lead from its queue to the one after it, and are what it counts. -/
theorem perform_deals (s : Session) {op : Operation} (hop : op.isCall = true) :
    Deal.Explain s.queue (s.deals op) (s.next op).queue (s.reported op) := by
  show s.Explained op (s.perform op)
  cases op with
  | fill | drain | blockedEnqueue | waitingTake => cases hop
  | offer producer source => exact .offer s producer source
  | enqueue producer source => exact .enqueue s producer source
  | take => exact .take s
  | takeWithin => exact .takeWithin s
  | closeQueue | dropQueue => exact .withQueue (.closing s rfl rfl)
  | closeProducer producer => exact .withProducer producer (.closing s rfl rfl)
  | inspect => exact .nothing rfl rfl
  | dropProducer producer | cloneProducer producer => exact .withProducer producer (.nothing rfl rfl)
  | newProducer => exact .withQueue (.nothing rfl rfl)
  | step renderer => exact .step s renderer
  | handle source renderer => exact .handle s source renderer
  | run renderer stop bound => exact .run s renderer stop bound

/-- So do the deals of a session. -/
theorem deals_after (s : Session) {ops : List Operation} (hops : ∀ op ∈ ops, op.isCall = true) :
    Deal.Explain s.queue (s.along deals ops) (s.after ops).queue (s.along reported ops) := by
  induction ops generalizing s with
  | nil => exact .nothing _ fun _ => rfl
  | cons op ops ih =>
    have hop := s.perform_deals (hops op List.mem_cons_self)
    exact hop.append (ih (s.next op) fun op hmem => hops op (List.mem_cons_of_mem _ hmem))

end Session

end SheddingQueue
