import SheddingQueue.Queue
import SheddingQueue.Run
import SheddingQueue.Settings

/-!
# A crowd at one queue

Any number of threads call a queue at the same time. A call enters the queue's lock, and once it
is inside it does one of the operations of `Queue`, which nobody else can disturb. If there is
nothing to do for it yet, some calls give the lock up and wait, and enter once more when they are
awake again. Whoever has stored or taken an item wakes one of those who wait for that, and whoever
has closed the queue wakes all; they do so after they have left the lock, when others may already
have been inside.

`Crowd.Step` is one step of one thread. Between two steps of a thread the others may do anything.
-/

namespace SheddingQueue

namespace Crowd

/-- What a thread may wait for: something to take, or a slot to store in. -/
inductive Signal where
  | item
  | room
  deriving DecidableEq, Repr

/-- Whether one who needs this would have to wait for it. -/
def Signal.lacking {α : Type} (q : Queue α) : Signal → Bool
  | .item => q.takeWaits
  | .room => q.offerWaits

/-- A call of one thread. `offerWithin` and `takeWithin` may wait once before their one attempt, and
`persist` makes such attempts until one is not refused as full. To `drop` the queue closes it. -/
inductive Request (α : Type) where
  | offer (x : α)
  | offerWithin (x : α)
  | persist (x : α)
  | take
  | takeWithin
  | close
  | drop
  deriving Repr

/-- Where a thread is between two of its steps. Nobody holds the lock then: who is `parked` has
given it up and waits, and who is `roused` no longer waits and is about to enter it again. Who has
been inside may still have to wake one (`notifying`) or all (`hailing`) of those who wait. -/
inductive Phase (α : Type) where
  | free
  | entering (r : Request α)
  | parked (r : Request α)
  | roused (r : Request α)
  | notifying (c : Signal)
  | hailing (c : Signal)
  deriving Repr

/-- What a thread does in a step. An item that is `offered` settles its call, one that is `retried`
has found no room and will be offered again. A thread that `leaves` has not been woken. -/
inductive Deed (α : Type) where
  | asks (r : Request α)
  | offered (x : α) (answer : Admission α)
  | retried (x : α)
  | took (x : Option α)
  | closed
  | parks
  | leaves
  | notifies
  | hails
  deriving Repr

/-- What comes of one time in the lock. -/
structure Passage (α : Type) where
  deed : Deed α
  phase : Phase α
  queue : Queue α

variable {α : Type}

namespace Request

/-- How a producer with this policy hands an item over. -/
def enqueue (policy : Policy) (x : α) : Request α :=
  match policy with
  | .drop => .offer x
  | .retry _ => .persist x

def awaits? : Request α → Option Signal
  | .offerWithin _ | .persist _ => some .room
  | .takeWithin => some .item
  | .offer _ | .take | .close | .drop => none

def item? : Request α → Option α
  | .offer x | .offerWithin x | .persist x => some x
  | .take | .takeWithin | .close | .drop => none

def takes : Request α → Bool
  | .take | .takeWithin => true
  | .offer _ | .offerWithin _ | .persist _ | .close | .drop => false

/-- Whether a call that enters the lock for the first time gives it up and waits. -/
def sleeps (q : Queue α) (r : Request α) : Bool :=
  match r.awaits? with
  | some c => c.lacking q
  | none => false

def settle (x : α) : Admission α × Queue α → Passage α
  | (.accepted, q) => ⟨.offered x .accepted, .notifying .item, q⟩
  | (.refused reason y, q) => ⟨.offered x (.refused reason y), .free, q⟩

def collect : Option α × Queue α → Passage α
  | (some x, q) => ⟨.took (some x), .notifying .room, q⟩
  | (none, q) => ⟨.took none, .free, q⟩

/-- What a call does in the lock, when it does not wait. -/
def act (q : Queue α) : Request α → Passage α
  | .offer x | .offerWithin x => settle x (q.offer x)
  | .persist x =>
    match q.offer x with
    -- the next attempt offers what this one got back, and it may wait again
    | (.refused .full y, q) => ⟨.retried x, .entering (.persist y), q⟩
    | attempt => settle x attempt
  | .take | .takeWithin => collect q.take
  | .close | .drop => ⟨.closed, .hailing .item, q.close⟩

end Request

namespace Phase

/-- The item that a thread still has to store. -/
def item? : Phase α → Option α
  | .entering r | .parked r | .roused r => r.item?
  | .free | .notifying _ | .hailing _ => none

def awaits (c : Signal) : Phase α → Bool
  | .parked r => r.awaits? == some c
  | _ => false

/-- Whether a thread has waited for a signal, and has not entered the lock since. -/
def awaited (c : Signal) : Phase α → Bool
  | .roused r => r.awaits? == some c
  | _ => false

def owesOne (c : Signal) : Phase α → Bool
  | .notifying d => d == c
  | _ => false

def owesAll (c : Signal) : Phase α → Bool
  -- those who wait for an item are woken first
  | .hailing .item => true
  | .hailing .room => c == .room
  | _ => false

/-- Wake a thread if it waits for a signal. -/
def rouse (c : Signal) (ph : Phase α) : Phase α :=
  match ph with
  | .parked r => if r.awaits? = some c then .roused r else .parked r
  | ph => ph

def afterHail : Signal → Phase α
  | .item => .hailing .room
  | .room => .free

end Phase

end Crowd

/-- A queue, and where each thread is. -/
structure Crowd (α : Type) where
  queue : Queue α
  threads : List (Crowd.Phase α)

namespace Crowd

variable {α : Type}

/-- `n` threads that have not called the queue yet. -/
def start (q : Queue α) (n : Nat) : Crowd α := ⟨q, List.replicate n .free⟩

def move (s : Crowd α) (i : Nat) (ph : Phase α) : Crowd α :=
  { s with threads := s.threads.set i ph }

/-- While one thread is about to wake another one, the other one is still waiting. -/
theorem parked_of_move {s : Crowd α} {i j : Nat} {c : Signal} {r : Request α}
    (hi : s.threads[i]? = some (.notifying c)) (hj : s.threads[j]? = some (.parked r))
    (ph : Phase α) : (s.move i ph).threads[j]? = some (.parked r) := by
  have hij : i ≠ j := by
    intro h
    rw [h, hj] at hi
    cases hi
  rw [move, List.getElem?_set_ne hij, hj]

def pass (s : Crowd α) (i : Nat) (p : Passage α) : Crowd α := ⟨p.queue, s.threads.set i p.phase⟩

def rouseAll (s : Crowd α) (c : Signal) : Crowd α :=
  { s with threads := s.threads.map (Phase.rouse c) }

/-- The number of threads of some kind. -/
def number (s : Crowd α) (p : Phase α → Bool) : Nat := s.threads.countP p

/-- One step of the thread with number `i`. -/
inductive Step : Crowd α → Nat × Deed α → Crowd α → Prop where
  | ask {s : Crowd α} {i : Nat} (r : Request α) (h : s.threads[i]? = some .free) :
      Step s (i, .asks r) (s.move i (.entering r))
  | park {s : Crowd α} {i : Nat} {r : Request α} (h : s.threads[i]? = some (.entering r))
      (hs : r.sleeps s.queue = true) : Step s (i, .parks) (s.move i (.parked r))
  | enter {s : Crowd α} {i : Nat} {r : Request α} (h : s.threads[i]? = some (.entering r))
      (hs : r.sleeps s.queue = false) :
      Step s (i, (r.act s.queue).deed) (s.pass i (r.act s.queue))
  | leave {s : Crowd α} {i : Nat} {r : Request α} (h : s.threads[i]? = some (.parked r)) :
      Step s (i, .leaves) (s.move i (.roused r))
  | reenter {s : Crowd α} {i : Nat} {r : Request α} (h : s.threads[i]? = some (.roused r)) :
      Step s (i, (r.act s.queue).deed) (s.pass i (r.act s.queue))
  -- any one of those who wait may be the one who is woken
  | notify {s : Crowd α} {i j : Nat} {c : Signal} {r : Request α}
      (h : s.threads[i]? = some (.notifying c)) (hj : s.threads[j]? = some (.parked r))
      (hr : r.awaits? = some c) : Step s (i, .notifies) ((s.move i .free).move j (.roused r))
  | notifyNobody {s : Crowd α} {i : Nat} {c : Signal} (h : s.threads[i]? = some (.notifying c))
      (hn : s.number (Phase.awaits c) = 0) : Step s (i, .notifies) (s.move i .free)
  | hail {s : Crowd α} {i : Nat} {c : Signal} (h : s.threads[i]? = some (.hailing c)) :
      Step s (i, .hails) ((s.rouseAll c).move i (Phase.afterHail c))

/-- A thread passes through the lock, and it is known what comes of it. -/
theorem Step.enter_of {s : Crowd α} {i : Nat} {r : Request α} {p : Passage α}
    (h : s.threads[i]? = some (.entering r)) (hs : r.sleeps s.queue = false)
    (hp : r.act s.queue = p) : Step s (i, p.deed) (s.pass i p) :=
  hp ▸ .enter h hs

end Crowd

end SheddingQueue
