import SheddingQueue.Proofs.Build
import SheddingQueue.Proofs.Session.Deals

/-!
# Counters and fill

The counters tell how full a queue is: frames come in by an enqueue, which is counted, or by a
direct offer, and they leave by a fate, which is counted unless there was no image, or by a direct
take. `Deal.coming_in` and `Deal.going_out` are the two sides of this for any deals;
`Session.balance_of_calls` puts them together for whole sessions.
-/

namespace SheddingQueue

variable {q q' : Queue Frame} {d : Deal} {ds : List Deal}

namespace Deal

/-- A frame is stored by an enqueue or by a direct offer. -/
theorem coming_in (ds : List Deal) :
    (ds.filterMap stored?).length = bookings .enqueued ds + ds.countP storesDirectly := by
  induction ds with
  | nil => rfl
  | cons d ds ih =>
    have hd : ([d].filterMap stored?).length =
        bookings .enqueued [d] + [d].countP storesDirectly := by
      rcases d with ⟨f, _ | ⟨_ | _, _⟩⟩ | ⟨_, _ | ⟨_ | _, _, _⟩⟩ | (_ | ⟨_ | _, _, _⟩) |
        (⟨f, _ | ⟨_, _⟩⟩ | _ | _ | _) <;> rfl
    rw [← List.singleton_append, List.filterMap_append, List.length_append, bookings_append,
      List.countP_append, ih, hd]
    omega

/-- How often the counters of fates count deals, and how many frames without an image there
were. -/
def handlings (ds : List Deal) : Nat :=
  bookings .shed ds + bookings .rendered ds + bookings .renderErrors ds + ds.countP skips

/-- A frame that is taken out meets a fate, unless it was taken directly. -/
theorem Fits.going_out (h : Fits q d q') :
    ([d].filterMap taken?).length + [d].countP isGiven =
      handlings [d] + [d].countP takesDirectly := by
  match d, h with
  | .enqueued _ .accepted, _ => rfl
  | .enqueued _ (.refused .full _), _ => rfl
  | .enqueued _ (.refused .closed _), _ => rfl
  | .looked found .idle, h => rw [h.2.mp rfl]; rfl
  | .looked none (.handled ..), h => cases h.2.mpr rfl
  | .looked (some _) (.handled .shed ..), _ => rfl
  | .looked (some _) (.handled .rendered ..), _ => rfl
  | .looked (some _) (.handled .noImage ..), _ => rfl
  | .looked (some _) (.handled .failed ..), _ => rfl
  | .given .idle, h => cases h.1 rfl
  | .given (.handled .shed ..), _ => rfl
  | .given (.handled .rendered ..), _ => rfl
  | .given (.handled .noImage ..), _ => rfl
  | .given (.handled .failed ..), _ => rfl
  | .exchanged (.offered ..), _ => rfl
  | .exchanged (.took none), _ => rfl
  | .exchanged (.took (some _)), _ => rfl
  | .exchanged .closed, _ => rfl
  | .exchanged .cancelled, _ => rfl

theorem going_out (h : Run Fits q ds q') :
    (ds.filterMap taken?).length + ds.countP isGiven =
      handlings ds + ds.countP takesDirectly := by
  induction h with
  | start => rfl
  | next _ hd ih =>
    have hd := hd.going_out
    simp only [handlings] at ih hd ⊢
    simp only [List.filterMap_append, List.length_append, List.countP_append, bookings_append]
    omega

end Deal

/-- What the counters of a queue say of its deals and of its fill. -/
structure Balance (q : Queue Frame) (ds : List Deal) (events : List Event) : Prop where
  /-- Each counter counts its own deals and nothing else. -/
  counted : ∀ c, increments c events = ds.countP fun d => d.counter? = some c
  /-- What came in is still there, or was counted when it left. -/
  filled :
    q.count + increments .shed events + increments .rendered events
        + increments .renderErrors events + ds.countP Deal.skips + ds.countP Deal.takesDirectly =
      increments .enqueued events + ds.countP Deal.storesDirectly

/-- Deals that begin with an empty queue balance, unless the consumer was given further frames. -/
theorem Deal.Explain.balance {n : Nat} {events : List Event} (h : Deal.Explain q ds q' events)
    (hq : q.Stores n []) (hgiven : ∀ d ∈ ds, d.isGiven = false) : Balance q' ds events := by
  refine ⟨h.counted, ?_⟩
  obtain ⟨ys, hys, hcontents⟩ := Deal.contents_of_run h.run hq
  have hlength : (ds.filterMap Deal.stored?).length
      = (ds.filterMap Deal.taken?).length + ys.length := by
    rw [← List.length_append, ← hcontents, List.nil_append]
  have hin := Deal.coming_in ds
  have hout := Deal.going_out h.run
  have hnone : ds.countP Deal.isGiven = 0 := by
    rw [List.countP_eq_zero]
    intro d hd
    rw [hgiven d hd]
    exact Bool.false_ne_true
  rw [hys.count_eq, h.counted, h.counted, h.counted, h.counted]
  rw [Deal.handlings] at hout
  omega

namespace Consumer

theorem isGiven_of_calls {calls : List Call} (hd : d ∈ calls.flatMap Call.deals) :
    d.isGiven = false := by
  obtain ⟨call, -, hd⟩ := List.mem_flatMap.mp hd
  obtain ⟨e, -, rfl⟩ := List.mem_map.mp hd
  rfl

theorem isGiven_of_deals {threshold : Nat} {renderer : Renderer} {s : State}
    (hd : d ∈ deals threshold renderer s) : d.isGiven = false := by
  rcases List.mem_cons.mp hd with rfl | hd
  · rfl
  · exact isGiven_of_calls hd

theorem isGiven_of_dealsWithin {threshold : Nat} {renderer : Renderer} {halt : Queue Frame → Bool}
    {bound : Nat} {s : State} (hd : d ∈ dealsWithin threshold renderer halt bound s) :
    d.isGiven = false := by
  induction bound generalizing s with
  | zero => cases hd
  | succ bound ih =>
    rw [dealsWithin] at hd
    split at hd
    · cases hd
    · rcases List.mem_append.mp hd with hd | hd
      · exact isGiven_of_deals hd
      · exact ih hd

end Consumer

namespace Session

theorem isGiven_of_deals {s : Session} {op : Operation} (hop : op.isHandle = false)
    (hd : d ∈ s.deals op) : d.isGiven = false := by
  rw [deals, dealsFor.eq_def] at hd
  split at hd
  · obtain ⟨e, -, rfl⟩ := List.mem_map.mp hd
    rfl
  · obtain ⟨e, -, rfl⟩ := List.mem_map.mp hd
    rfl
  · cases List.mem_singleton.mp hd
    rfl
  · cases List.mem_singleton.mp hd
    rfl
  · cases List.mem_singleton.mp hd
    rfl
  · cases List.mem_singleton.mp hd
    rfl
  · cases List.mem_singleton.mp hd
    rfl
  · exact Consumer.isGiven_of_deals hd
  · cases hop
  · exact Consumer.isGiven_of_dealsWithin hd
  · cases hd

theorem isGiven_of_along {s : Session} {ops : List Operation}
    (hops : ∀ op ∈ ops, op.isHandle = false) (hd : d ∈ s.along deals ops) : d.isGiven = false := by
  induction ops generalizing s with
  | nil => cases hd
  | cons op ops ih =>
    rcases List.mem_append.mp hd with hd | hd
    · exact isGiven_of_deals (hops op List.mem_cons_self) hd
    · exact ih (fun op hmem => hops op (List.mem_cons_of_mem _ hmem)) hd

/-- After any calls, be it with a renderer that uses the queue itself, each counter says how often
its own kind of deal was made, and together with what was stored and taken directly the counters
say how many frames there are in the queue. -/
theorem balance_of_calls {st : Settings} {b : Built Frame} (hb : st.build Frame = .ok b)
    {ops : List Operation} (hops : ∀ op ∈ ops, op.isCall = true ∧ op.isHandle = false) :
    let s := ofBuilt b
    Balance (s.after ops).queue (s.along deals ops) (s.along reported ops) := by
  intro s
  have hq : s.queue.Stores b.capacity [] := (Settings.stores_of_build hb).1
  have hdeals := s.deals_after fun op hmem => (hops op hmem).1
  exact hdeals.balance hq fun d hd => isGiven_of_along (fun op hmem => (hops op hmem).2) hd

/-- Two frames are enqueued and a third one finds no room. The first is shed since the second waits
behind it; the second is rendered by somebody who offers two frames more and closes the queue. Of
these one is shed again, and nothing more comes in. -/
theorem balance_of_meddling : ∃ b,
    ({ capacity := 3, threshold := .fixed 1 } : Settings).build Frame = .ok b ∧
    let s := ofBuilt b
    let enqueue n : Operation := .enqueue 0 (.frame (specimen n))
    let meddling : Renderer := fun _ _ _ =>
      .offer (specimen 4) fun _ => .offer (specimen 5) fun _ => .close (.finish (.ok ()))
    let ops := [enqueue 1, enqueue 2, enqueue 3, .run meddling .never 2, enqueue 6, .take]
    (∀ op ∈ ops, op.isCall = true ∧ op.isHandle = false) ∧
    (Counter.all.map fun c => increments c (s.along reported ops)) = [2, 1, 2, 2, 0] ∧
    (s.along deals ops).countP Deal.storesDirectly = 2 ∧
    Balance (s.after ops).queue (s.along deals ops) (s.along reported ops) := by
  have hb : ({ capacity := 3, threshold := .fixed 1 } : Settings).build Frame =
    .ok ⟨_, _, _, _, _⟩ := rfl
  refine ⟨_, hb, ?_⟩
  intro s enqueue meddling ops
  have hops : ∀ op ∈ ops, op.isCall = true ∧ op.isHandle = false := by
    simp [ops, enqueue, Operation.isCall, Operation.isHandle]
  exact ⟨hops, by decide +kernel, by decide +kernel, balance_of_calls hb hops⟩

end Session

end SheddingQueue
