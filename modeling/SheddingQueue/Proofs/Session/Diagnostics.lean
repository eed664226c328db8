import SheddingQueue.Proofs.Build
import SheddingQueue.Proofs.Consumer.Likeness
import SheddingQueue.Session.History

/-!
# Sequence numbers are for diagnosis only

Two sessions start from the same settings and do the same operations, with frames that correspond
by a `Pairing`. Whatever the sequence numbers and the fields of these frames are, every operation
answers the same in both sessions, leaves the queues equally full, and reports the same but for the
sequence numbers: `diagnostics_only`.
-/

namespace SheddingQueue

variable {p : Pairing}

/-- Both describe a frame, and these correspond, or neither does. -/
inductive Source.Alike (p : Pairing) (a b : Source) : Prop where
  | frames {f g : Frame} (ha : a.frame? = .ok f) (hb : b.frame? = .ok g) (h : p.pairs f g)
  | malformed {m m' : Malformed} (ha : a.frame? = .error m) (hb : b.frame? = .error m')

/-- The same operation on the same producer, with corresponding frames and with renderers that do
the same. -/
inductive Operation.Alike (p : Pairing) : Operation → Operation → Prop where
  | offer (n : Nat) {a b : Source} (h : a.Alike p b) : Alike p (.offer n a) (.offer n b)
  | enqueue (n : Nat) {a b : Source} (h : a.Alike p b) : Alike p (.enqueue n a) (.enqueue n b)
  | fill (n : Nat) {first first' : Nat} (count : Nat)
      (h : ∀ k, p.pairs (Session.specimen (first + k)) (Session.specimen (first' + k))) :
      Alike p (.fill n first count) (.fill n first' count)
  | take : Alike p .take .take
  | takeWithin : Alike p .takeWithin .takeWithin
  | drain (most : Nat) : Alike p (.drain most) (.drain most)
  | inspect (n : Nat) : Alike p (.inspect n) (.inspect n)
  | closeQueue : Alike p .closeQueue .closeQueue
  | dropQueue : Alike p .dropQueue .dropQueue
  | closeProducer (n : Nat) : Alike p (.closeProducer n) (.closeProducer n)
  | dropProducer (n : Nat) : Alike p (.dropProducer n) (.dropProducer n)
  | cloneProducer (n : Nat) : Alike p (.cloneProducer n) (.cloneProducer n)
  | newProducer : Alike p .newProducer .newProducer
  | step {r r' : Renderer} (hr : Renderer.Alike p r r') : Alike p (.step r) (.step r')
  | handle {a b : Source} {r r' : Renderer} (h : a.Alike p b) (hr : Renderer.Alike p r r') :
      Alike p (.handle a r) (.handle b r')
  | run {r r' : Renderer} (hr : Renderer.Alike p r r') (stop : StopSignal) (bound : Nat) :
      Alike p (.run r stop bound) (.run r' stop bound)
  | blockedEnqueue (n : Nat) {a b : Source} (h : a.Alike p b) (seen : Bool) (release : Release) :
      Alike p (.blockedEnqueue n a seen release) (.blockedEnqueue n b seen release)
  | waitingTake (n : Nat) {a b : Option Source} (h : Option.Rel (Source.Alike p) a b) :
      Alike p (.waitingTake n a) (.waitingTake n b)

/-- The same reply, and frames in it correspond. -/
inductive Reply.Alike (p : Pairing) : Reply → Reply → Prop where
  | done : Alike p .done .done
  | noQueue : Alike p .noQueue .noQueue
  | noProducer : Alike p .noProducer .noProducer
  | malformed (m m' : Malformed) : Alike p (.malformed m) (.malformed m')
  | refused (reason : Refusal) {f g : Frame} (h : p.pairs f g) :
      Alike p (.refused reason f) (.refused reason g)
  | filled (accepted : Nat) {refused refused' : Option (Refusal × Frame)}
      (h : Option.Rel (fun a b => a.1 = b.1 ∧ p.pairs a.2 b.2) refused refused') :
      Alike p (.filled accepted refused) (.filled accepted refused')
  | took {found found' : Option Frame} (h : Option.Rel p.pairs found found') :
      Alike p (.took found) (.took found')
  | drained {seqs seqs' : List (Option UInt64)} (h : seqs.length = seqs'.length) :
      Alike p (.drained seqs) (.drained seqs')
  | views (queue : Option QueueView) (producer : Option ProducerView) :
      Alike p (.views queue producer) (.views queue producer)
  | producer (n : Nat) : Alike p (.producer n) (.producer n)
  | outcome {o o' : Outcome} {calls calls' : List Call} (h : o.unnumbered = o'.unnumbered)
      (hc : List.Forall₂ (Call.Alike p) calls calls') :
      Alike p (.outcome o calls) (.outcome o' calls')
  | tally (t : Tally) {calls calls' : List Call} (hc : List.Forall₂ (Call.Alike p) calls calls') :
      Alike p (.tally t calls) (.tally t calls')
  | released {found found' : Option Frame} {answer answer' : Admission Frame}
      (h : Option.Rel p.pairs found found') (ha : answer.Alike p.pairs answer') :
      Alike p (.released found answer) (.released found' answer')
  | handedOver (closed : Bool) {found found' : Option Frame}
      (h : Option.Rel p.pairs found found') :
      Alike p (.handedOver closed found) (.handedOver closed found')
  | blocked : Alike p .blocked .blocked

namespace Session

variable {s s' : Session} {f g : Frame}

/-- The same session, but for the queues. These are alike. -/
def Alike (p : Pairing) (s s' : Session) : Prop :=
  ∃ q, s.queue.Alike p.pairs q ∧ s' = { s with queue := q }

structure Performed.Alike (p : Pairing) (a b : Performed) : Prop where
  reply : a.1.Alike p b.1
  session : a.2.1.Alike p b.2.1
  events : SameEvents a.2.2 b.2.2

namespace Alike

theorem queue (hs : s.Alike p s') : s.queue.Alike p.pairs s'.queue := by
  obtain ⟨q, hq, rfl⟩ := hs
  exact hq

theorem watch_eq (hs : s.Alike p s') : s.watch = s'.watch := by
  obtain ⟨q, -, rfl⟩ := hs
  rfl

theorem producers_eq (hs : s.Alike p s') : s.producers = s'.producers := by
  obtain ⟨q, -, rfl⟩ := hs
  rfl

theorem update (hs : s.Alike p s') {q q' : Queue Frame} (hq : q.Alike p.pairs q') :
    Alike p { s with queue := q } { s' with queue := q' } := by
  obtain ⟨_, -, rfl⟩ := hs
  exact ⟨q', hq, rfl⟩

theorem updateProducers (hs : s.Alike p s') (producers : List Bool) :
    Alike p { s with producers := producers } { s' with producers := producers } := by
  obtain ⟨q, hq, rfl⟩ := hs
  exact ⟨q, hq, rfl⟩

theorem withQueue (hs : s.Alike p s') {a b : Performed} (h : Performed.Alike p a b) :
    Performed.Alike p (s.withQueue a) (s'.withQueue b) := by
  have hmissing : Performed.Alike p (.noQueue, s, []) (.noQueue, s', []) := ⟨.noQueue, hs, rfl⟩
  obtain ⟨q, -, rfl⟩ := hs
  rw [Session.withQueue, Session.withQueue]
  dsimp only
  split
  · exact h
  · exact hmissing

theorem withProducer (hs : s.Alike p s') (n : Nat) {a b : Performed} (h : Performed.Alike p a b) :
    Performed.Alike p (s.withProducer n a) (s'.withProducer n b) := by
  have hmissing : Performed.Alike p (.noProducer, s, []) (.noProducer, s', []) :=
    ⟨.noProducer, hs, rfl⟩
  obtain ⟨q, -, rfl⟩ := hs
  rw [Session.withProducer, Session.withProducer, hasProducer, hasProducer]
  dsimp only
  split
  · exact h
  · exact hmissing

theorem withFrame (hs : s.Alike p s') {a b : Source} (hab : a.Alike p b)
    {act act' : Frame → Performed}
    (h : ∀ f g, p.pairs f g → Performed.Alike p (act f) (act' g)) :
    Performed.Alike p (s.withFrame a act) (s'.withFrame b act') := by
  rw [Session.withFrame, Session.withFrame]
  cases hab with
  | frames ha hb hfg =>
    rw [ha, hb]
    exact h _ _ hfg
  | malformed ha hb =>
    rw [ha, hb]
    exact ⟨.malformed _ _, hs, rfl⟩

/-- A call of a producer, among others who do the same in both sessions. -/
theorem enqueue (hs : s.Alike p s') {os os' : List Producer.Others}
    (hos : List.Forall₂ (Producer.Others.Alike p) os os') (hfg : p.pairs f g)
    {reply reply' : Admission Frame → Reply}
    (hreply : ∀ answer answer', answer.Alike p.pairs answer' →
      (reply answer).Alike p (reply' answer')) :
    Performed.Alike p (s.enqueue os f reply) (s'.enqueue os' g reply') := by
  have hblocked : Performed.Alike p (.blocked, s, []) (.blocked, s', []) := ⟨.blocked, hs, rfl⟩
  obtain ⟨q, hq, rfl⟩ := hs
  have henqueue := Producer.enqueue_alike s.policy hos hq hfg
  rw [Session.enqueue, Session.enqueue]
  dsimp only
  generalize Producer.enqueue s.policy os s.queue f = r at *
  generalize Producer.enqueue s.policy os' q g = r' at *
  cases henqueue with
  | none => exact hblocked
  | some hr => exact ⟨hreply _ _ hr.answer, ⟨_, hr.queue, rfl⟩, hr.events⟩

theorem release (release : Release) {q q' : Queue Frame} (hq : q.Alike p.pairs q') :
    Option.Rel p.pairs (Release.frame? q release) (Release.frame? q' release) ∧
      (Release.act release q).Alike p.pairs (Release.act release q') := by
  cases release with
  | take => exact hq.take
  | closeQueue | closeProducer | dropQueue => exact ⟨.none, hq.close⟩

theorem releaseAfter (release : Release) {a b : Performed} (h : Performed.Alike p a b) :
    Performed.Alike p (Session.releaseAfter release a) (Session.releaseAfter release b) := by
  obtain ⟨reply, s, events⟩ := a
  obtain ⟨reply', s', events'⟩ := b
  have hreply : reply.Alike p reply' := h.reply
  cases hreply with
  | released _ hanswer =>
    obtain ⟨q, hq, rfl⟩ : s.Alike p s' := h.session
    obtain ⟨hfound, hafter⟩ := Alike.release release hq
    exact ⟨.released hfound hanswer, ⟨_, hafter, rfl⟩, h.events⟩
  | _ => exact h

theorem blockedEnqueue (hs : s.Alike p s') (seen : Bool) (release : Release)
    (hfg : p.pairs f g) :
    Performed.Alike p (s.blockedEnqueue seen release f) (s'.blockedEnqueue seen release g) := by
  let others : List Producer.Others :=
    if seen then [{}, { during := Release.act release }] else [{ during := Release.act release }]
  have hothers : List.Forall₂ (Producer.Others.Alike p) others others := by
    have hnothing : Producer.Others.Alike p {} {} := ⟨fun _ _ hq => hq, fun _ _ hq => hq⟩
    have hfreed : Producer.Others.Alike p { during := Release.act release }
        { during := Release.act release } :=
      ⟨fun _ _ hq => hq, fun _ _ hq => (Alike.release release hq).2⟩
    cases seen with
    | true => exact .cons hnothing (.cons hfreed .nil)
    | false => exact .cons hfreed .nil
  have hcall : Performed.Alike p
      (if s.enqueueWaits then s.enqueue others f (.released (Release.frame? s.queue release))
        else Session.releaseAfter release (s.enqueue [] f (.released none)))
      (if s'.enqueueWaits then s'.enqueue others g (.released (Release.frame? s'.queue release))
        else Session.releaseAfter release (s'.enqueue [] g (.released none))) := by
    have hwaits : s.enqueueWaits = s'.enqueueWaits := by
      obtain ⟨q, hq, rfl⟩ := hs
      rw [enqueueWaits, enqueueWaits, hq.offerWaits_eq]
    have hfound := (Alike.release release hs.queue).1
    rw [hwaits]
    split
    · exact hs.enqueue hothers hfg fun _ _ ha => .released hfound ha
    · exact releaseAfter release (hs.enqueue .nil hfg fun _ _ ha => .released .none ha)
  obtain ⟨q, hq, hs'⟩ := hcall.session
  refine ⟨hcall.reply, ⟨q, hq, ?_⟩, hcall.events⟩
  exact congrArg (fun t : Session => { t with held := t.held && release != Release.dropQueue }) hs'

/-- What the other side of a take does. -/
theorem otherSide (policy : Policy) {a b : Option Frame} (hab : Option.Rel p.pairs a b)
    {q q' : Queue Frame} (hq : q.Alike p.pairs q') :
    Option.Rel (fun r r' => r.1.Alike p.pairs r'.1 ∧ SameEvents r.2 r'.2)
      (Session.otherSide policy a q) (Session.otherSide policy b q') := by
  cases hab with
  | none => exact .some ⟨hq.close, rfl⟩
  | some hfg => exact rel_map (Producer.enqueue_alike policy .nil hq hfg) fun _ _ h =>
      ⟨h.queue, h.events⟩

theorem waitingTake (hs : s.Alike p s') {a b : Option Frame} (hab : Option.Rel p.pairs a b) :
    Performed.Alike p (s.waitingTake a) (s'.waitingTake b) := by
  have hblocked : Performed.Alike p (.blocked, s, []) (.blocked, s', []) := ⟨.blocked, hs, rfl⟩
  obtain ⟨q, hq, rfl⟩ := hs
  have hnone : a.isNone = b.isNone := by cases hab <;> rfl
  rw [Session.waitingTake, Session.waitingTake, hq.takeWaits_eq, hnone]
  dsimp only
  split
  · have hside := otherSide s.policy hab hq
    generalize Session.otherSide s.policy a s.queue = r at *
    generalize Session.otherSide s.policy b q = r' at *
    cases hside with
    | none => exact hblocked
    | some hr =>
      obtain ⟨hfound, hafter⟩ := hr.1.take
      exact ⟨.handedOver _ hfound, ⟨_, hafter, rfl⟩, hr.2⟩
  · obtain ⟨hfound, hafter⟩ := hq.take
    have hside := otherSide s.policy hab hafter
    generalize Session.otherSide s.policy a s.queue.take.2 = r at *
    generalize Session.otherSide s.policy b q.take.2 = r' at *
    cases hside with
    | none => exact hblocked
    | some hr => exact ⟨.handedOver _ hfound, ⟨_, hr.1, rfl⟩, hr.2⟩

end Alike

theorem fillFrom_alike {q q' : Queue Frame} (hq : q.Alike p.pairs q') {n n' : Nat}
    (h : ∀ k, p.pairs (specimen (n + k)) (specimen (n' + k))) (accepted count : Nat) :
    let r := fillFrom q n accepted count
    let r' := fillFrom q' n' accepted count
    r.1 = r'.1 ∧ Option.Rel (fun a b => a.1 = b.1 ∧ p.pairs a.2 b.2) r.2.1 r'.2.1 ∧
      r.2.2.Alike p.pairs r'.2.2 := by
  induction count generalizing q q' n n' accepted with
  | zero => exact ⟨rfl, .none, hq⟩
  | succ count ih =>
    rw [fillFrom, fillFrom]
    rcases hq.offer_cases (h 0) with ⟨reason, ho, ho'⟩ | ⟨r, r', ho, ho', hr⟩
    · rw [Nat.add_zero] at ho ho'
      rw [ho, ho']
      exact ⟨rfl, .some ⟨rfl, h 0⟩, hq⟩
    · rw [Nat.add_zero] at ho ho'
      rw [ho, ho']
      refine ih hr (fun k => ?_) (accepted + 1)
      rw [Nat.add_right_comm n, Nat.add_right_comm n']
      exact h (k + 1)

theorem drainFrom_alike {q q' : Queue Frame} (hq : q.Alike p.pairs q') (most : Nat) :
    List.Forall₂ p.pairs (drainFrom q most).1 (drainFrom q' most).1 ∧
      (drainFrom q most).2.Alike p.pairs (drainFrom q' most).2 := by
  induction most generalizing q q' with
  | zero => exact ⟨.nil, hq⟩
  | succ most ih =>
    rw [drainFrom, drainFrom]
    rcases hq.take_cases with ⟨ht, ht'⟩ | ⟨f, g, r, r', ht, ht', hfg, hr⟩
    · rw [ht, ht']
      exact ⟨.nil, hq⟩
    · rw [ht, ht']
      obtain ⟨hrest, hend⟩ := ih hr
      exact ⟨.cons hfg hrest, hend⟩

theorem consumerState_alike (hs : s.Alike p s') :
    Consumer.State.Alike p s.consumerState s'.consumerState :=
  ⟨hs.queue, rfl, .nil⟩

theorem handled_alike (hs : s.Alike p s') {r r' : Consumer.Result} (hr : r.Alike p r') :
    Performed.Alike p (s.handled r) (s'.handled r') := by
  obtain ⟨q, -, rfl⟩ := hs
  exact ⟨.outcome hr.outcome_eq hr.state.calls, ⟨_, hr.state.queue, rfl⟩, hr.events⟩

theorem halt_alike (stop : StopSignal) (q q' : Queue Frame) (hq : q.Alike p.pairs q') :
    StopSignal.halt stop q = StopSignal.halt stop q' := by
  cases stop with
  | never | atOnce => rfl
  | whenEmpty => exact hq.isEmpty_eq

theorem run_alike (hs : s.Alike p s') {r r' : Renderer} (hr : Renderer.Alike p r r')
    (stop : StopSignal) (bound : Nat) :
    Performed.Alike p (s.run r stop bound) (s'.run r' stop bound) := by
  have hblocked : Performed.Alike p (.blocked, s, []) (.blocked, s', []) := ⟨.blocked, hs, rfl⟩
  have hstate := consumerState_alike hs
  obtain ⟨q, hq, rfl⟩ := hs
  have hrun := Consumer.run_alike s.capacity s.watch.threshold hr (halt_alike stop)
    (s.queue.count + bound) hstate
  rw [run, run]
  dsimp only
  rw [← hq.count_eq]
  generalize Consumer.run _ _ r _ _ _ = a at *
  generalize Consumer.run _ _ r' _ _ _ = b at *
  cases hrun with
  | none => exact hblocked
  | some h =>
    dsimp only
    rw [h.tally_eq]
    exact ⟨.tally _ h.state.calls, ⟨_, h.state.queue, rfl⟩, h.events⟩

theorem answered_alike {answer answer' : Admission Frame} (h : answer.Alike p.pairs answer') :
    (answered answer).Alike p (answered answer') := by
  cases h with
  | accepted => exact .done
  | refused reason hfg => exact .refused reason hfg

theorem queueView_eq (hs : s.Alike p s') : s.queueView = s'.queueView := by
  obtain ⟨q, hq, rfl⟩ := hs
  simp only [queueView, hq.count_eq, hq.isEmpty_eq, hq.closed_eq]

theorem producerView_eq (hs : s.Alike p s') : s.producerView = s'.producerView := by
  obtain ⟨q, hq, rfl⟩ := hs
  simp only [producerView, hq.count_eq, hq.isEmpty_eq, hq.closed_eq]

/-- One operation. -/
theorem perform_alike (hs : s.Alike p s') {op op' : Operation} (hop : op.Alike p op') :
    Performed.Alike p (s.perform op) (s'.perform op') := by
  cases hop with
  | offer n h =>
    refine hs.withProducer n (hs.withFrame h fun f g hfg => ?_)
    obtain ⟨hanswer, hafter⟩ := hs.queue.offer hfg
    exact ⟨answered_alike hanswer, hs.update hafter, rfl⟩
  | enqueue n h =>
    refine hs.withProducer n (hs.withFrame h fun f g hfg => ?_)
    exact hs.enqueue .nil hfg fun _ _ => answered_alike
  | @fill n first first' count h =>
    refine hs.withProducer n ?_
    obtain ⟨haccepted, hrefused, hafter⟩ := fillFrom_alike hs.queue h 0 count
    generalize fillFrom s.queue first 0 count = r at *
    generalize fillFrom s'.queue first' 0 count = r' at *
    obtain ⟨accepted, refused, after⟩ := r
    obtain ⟨accepted', refused', after'⟩ := r'
    obtain rfl : accepted = accepted' := haccepted
    exact ⟨.filled _ hrefused, hs.update hafter, rfl⟩
  | take =>
    obtain ⟨hfound, hafter⟩ := hs.queue.take
    exact hs.withQueue ⟨.took hfound, hs.update hafter, rfl⟩
  | takeWithin =>
    obtain ⟨hfound, hafter⟩ := hs.queue.take
    rw [perform, perform, Queue.takeWithin_id, Queue.takeWithin_id]
    exact hs.withQueue ⟨.took hfound, hs.update hafter, rfl⟩
  | drain most =>
    obtain ⟨hframes, hafter⟩ := drainFrom_alike hs.queue most
    refine hs.withQueue ⟨.drained ?_, hs.update hafter, rfl⟩
    rw [List.length_map, List.length_map, hframes.length_eq]
  | inspect n =>
    rw [perform, perform, queueView_eq hs, producerView_eq hs]
    have hviews : ∀ queue producer,
        Performed.Alike p (.views queue producer, s, []) (.views queue producer, s', []) :=
      fun _ _ => ⟨.views _ _, hs, rfl⟩
    obtain ⟨q, -, rfl⟩ := hs
    exact hviews _ _
  | closeQueue => exact hs.withQueue ⟨.done, hs.update hs.queue.close, rfl⟩
  | dropQueue =>
    refine hs.withQueue ⟨.done, ?_, rfl⟩
    obtain ⟨q, hq, rfl⟩ := hs
    exact ⟨_, hq.close, rfl⟩
  | closeProducer n => exact hs.withProducer n ⟨.done, hs.update hs.queue.close, rfl⟩
  | dropProducer n =>
    rw [perform, perform, hs.producers_eq]
    exact hs.withProducer n ⟨.done, hs.updateProducers _, rfl⟩
  | cloneProducer n =>
    rw [perform, perform, hs.producers_eq]
    exact hs.withProducer n ⟨.producer _, hs.updateProducers _, rfl⟩
  | newProducer =>
    rw [perform, perform, hs.producers_eq]
    exact hs.withQueue ⟨.producer _, hs.updateProducers _, rfl⟩
  | step hr =>
    rw [perform, perform, hs.watch_eq]
    exact hs.withQueue (handled_alike hs (Consumer.step_alike _ hr (consumerState_alike hs)))
  | handle h hr =>
    rw [perform, perform, hs.watch_eq]
    refine hs.withQueue (hs.withFrame h fun f g hfg => ?_)
    exact handled_alike hs (Consumer.handle_alike _ hr (consumerState_alike hs) hfg)
  | run hr stop bound => exact hs.withQueue (run_alike hs hr stop bound)
  | blockedEnqueue n h seen release =>
    exact hs.withProducer n (hs.withQueue (hs.withFrame h fun f g hfg =>
      hs.blockedEnqueue seen release hfg))
  | waitingTake n h =>
    refine hs.withQueue (hs.withProducer n ?_)
    cases h with
    | none => exact hs.waitingTake .none
    | some h => exact hs.withFrame h fun f g hfg => hs.waitingTake (.some hfg)

/-! ## Whole sessions -/

/-- What the operations of a session come to, one by one. -/
def performed (s : Session) (ops : List Operation) : List Performed :=
  s.along (fun s op => [s.perform op]) ops

theorem performed_alike (hs : s.Alike p s') {ops ops' : List Operation}
    (hops : List.Forall₂ (Operation.Alike p) ops ops') :
    List.Forall₂ (Performed.Alike p) (s.performed ops) (s'.performed ops') := by
  induction hops generalizing s s' with
  | nil => exact .nil
  | cons hop _ ih =>
    have h := perform_alike hs hop
    exact .cons h (ih h.session)

/-- All that can be seen of an operation is the same in both sessions, but for sequence numbers and
fields. -/
structure Indistinct (p : Pairing) (a b : Performed) : Prop where
  /-- The same answer, on corresponding frames. -/
  reply : a.1.Alike p b.1
  count_eq : a.2.1.queue.count = b.2.1.queue.count
  closed_eq : a.2.1.queue.closed = b.2.1.queue.closed
  /-- What is in the queues corresponds. -/
  contents : List.Forall₂ p.pairs a.2.1.queue.toList b.2.1.queue.toList
  increments_eq : ∀ c, increments c a.2.2 = increments c b.2.2
  records_eq : (notices a.2.2).map Notice.masked = (notices b.2.2).map Notice.masked

theorem Performed.Alike.indistinct {a b : Performed} (h : Performed.Alike p a b) :
    Indistinct p a b := by
  have hqueue := h.session.queue
  obtain ⟨n, xs, ys, hq, hq', hxs⟩ := hqueue.contents
  refine ⟨h.reply, hqueue.count_eq, hqueue.closed_eq, ?_, h.events.increments_eq,
    h.events.records_eq⟩
  rw [hq.toList_eq, hq'.toList_eq]
  exact hxs

/-- Nothing that a session does depends on the sequence numbers and the fields of frames: whoever
replaces all frames, those of the renderers included, by others with the same images sees the same
answers, fills, counters and records, but for these numbers and fields. -/
theorem diagnostics_only {st : Settings} {b : Built Frame} (hb : st.build Frame = .ok b)
    (p : Pairing) {ops ops' : List Operation}
    (hops : List.Forall₂ (Operation.Alike p) ops ops') :
    List.Forall₂ (Indistinct p) ((ofBuilt b).performed ops) ((ofBuilt b).performed ops') := by
  obtain ⟨hstores, -⟩ := Settings.stores_of_build hb
  have hqueue : b.queue.Alike p.pairs b.queue := ⟨⟨_, [], [], hstores, hstores, .nil⟩, rfl⟩
  have hstart : (ofBuilt b).Alike p (ofBuilt b) := ⟨b.queue, hqueue, rfl⟩
  exact (performed_alike hstart hops).imp fun _ _ h => h.indistinct

/-- Two sessions in which the frames of the second have other numbers and a field more. A frame is
shed, one is given up, one is rendered by somebody who enqueues a further frame, and that one cannot
be rendered. The records differ, but only in the numbers. -/
theorem diagnostics_only_of_renumbered : ∃ b,
    ({ capacity := 3, threshold := .fixed 1 } : Settings).build Frame = .ok b ∧
    let s := ofBuilt b
    let p : Pairing := ⟨fun f g => f.image = g.image, id⟩
    let plan (frame : Nat → Frame) (call : Nat) (_ : List UInt8) : Interaction :=
      if call = 0 then .offer (frame 4) fun _ => .finish (.ok ())
      else .finish (.error (.decode "truncated"))
    let ops (frame : Nat → Frame) : List Operation :=
      [.enqueue 0 (.frame (frame 1)), .enqueue 0 (.frame (frame 2)),
        .enqueue 0 (.frame (frame 3)), .run (.planned (plan frame) 0) .whenEmpty 5,
        .closeProducer 0, .enqueue 0 (.frame (frame 5))]
    let frame := specimen
    let frame' k := (specimen (k + 100)).withField "camera" (.scalar (.text "rear"))
    List.Forall₂ (Operation.Alike p) (ops frame) (ops frame') ∧
    (Counter.all.map fun c => increments c (s.along reported (ops frame))) = [2, 1, 1, 1, 1] ∧
    notices (s.along reported (ops frame)) ≠ notices (s.along reported (ops frame')) ∧
    List.Forall₂ (Indistinct p) (s.performed (ops frame)) (s.performed (ops frame')) := by
  have hb : ({ capacity := 3, threshold := .fixed 1 } : Settings).build Frame =
    .ok ⟨_, _, _, _, _⟩ := rfl
  refine ⟨_, hb, ?_⟩
  intro s p plan ops frame frame'
  have hframe (k : Nat) : p.pairs (frame k) (frame' k) := rfl
  have hsource (k : Nat) : Source.Alike p (.frame (frame k)) (.frame (frame' k)) :=
    .frames rfl rfl (hframe k)
  have hplan : Renderer.Alike p (.planned (plan frame) 0) (.planned (plan frame') 0) := by
    refine Renderer.planned_alike (fun call image => ?_) 0
    by_cases hcall : call = 0
    · simp only [plan, if_pos hcall]
      exact .offer (hframe 4) fun _ _ _ => .finish _
    · simp only [plan, if_neg hcall]
      exact .finish _
  have hops : List.Forall₂ (Operation.Alike p) (ops frame) (ops frame') :=
    .cons (.enqueue 0 (hsource 1)) <| .cons (.enqueue 0 (hsource 2)) <|
    .cons (.enqueue 0 (hsource 3)) <| .cons (.run hplan .whenEmpty 5) <|
    .cons (.closeProducer 0) <| .cons (.enqueue 0 (hsource 5)) .nil
  exact ⟨hops, by decide +kernel, by decide +kernel, diagnostics_only hb p hops⟩

end Session

end SheddingQueue
