/-!
# The bounded queue

Messages of all subscriptions go through one queue of fixed capacity. A push into a full queue
waits; a taker of an empty queue may wait, too. Both kinds of waiting are served in the order in
which they began, and at once: whenever a place or a message becomes free, the oldest one waiting
for it gets it in the same step. With capacity zero a push is handed from the one who waits with
it to the one who takes it.

The queue is open as long as somebody could still take from it: its owner, a receiver handle, or a
taker who waits. Pushing into a closed queue fails, and closing it fails every push that waits.

Each one who waits does so under a ticket.
-/

namespace TopicFeed

/-- The state of a bounded queue: the messages inside, those who wait with a push and those who
wait for a message, all with the oldest first, and the handles through which it can be taken
from. -/
structure Queue (τ α : Type) where
  capacity : Nat
  items : List α := []
  pushes : List (τ × α) := []
  takers : List τ := []
  owned : Bool := true
  receivers : Nat := 0
  deriving Repr

namespace Queue

variable {τ α : Type}

/-- Somebody could still take from the queue. -/
def isOpen (q : Queue τ α) : Bool := q.owned || 0 < q.receivers || !q.takers.isEmpty

/-- The number of messages inside; those of waiting pushes do not count. -/
def size (q : Queue τ α) : Nat := q.items.length

/-- No message is inside. -/
def isEmpty (q : Queue τ α) : Bool := q.items.isEmpty

/-- How a push ends, or that it waits. -/
inductive Pushed where
  | entered
  | waiting
  | closed
  deriving DecidableEq, Repr

/-- What becomes of one who waited. -/
inductive Wake (α : Type) where
  | entered
  | closed
  | took (message : α)
  deriving DecidableEq, Repr

/-- A change of the queue, and what it meant to those who waited, in the order they had begun. -/
structure Change (τ α : Type) where
  queue : Queue τ α
  woken : List (τ × Wake α) := []

/-- The message that went to one who waited for it. -/
def Wake.message? : Wake α → Option α
  | took m => some m
  | entered | closed => none

/-- The messages that a change handed to those who waited for one, with their tickets. -/
def Change.handed (c : Change τ α) : List (τ × α) :=
  c.woken.filterMap fun w => w.2.message?.map fun m => (w.1, m)

/-- Pushes a message: to the oldest waiting taker, else into the queue, else to the end of the
waiting pushes. -/
def push (q : Queue τ α) (ticket : τ) (message : α) : Change τ α × Pushed :=
  if !q.isOpen then (⟨q, []⟩, .closed)
  else match q.takers with
    | taker :: takers =>
      (⟨{ q with takers := takers }, [(taker, .took message)]⟩, .entered)
    | [] =>
      if q.items.length < q.capacity then
        (⟨{ q with items := q.items ++ [message] }, []⟩, .entered)
      else (⟨{ q with pushes := q.pushes ++ [(ticket, message)] }, []⟩, .waiting)

/-- Takes the oldest message, if there is one. The place it leaves goes to the oldest waiting
push; an empty queue hands that push over directly. -/
def take (q : Queue τ α) : Change τ α × Option α :=
  match q.items, q.pushes with
  | m :: items, [] => (⟨{ q with items := items }, []⟩, some m)
  | m :: items, (ticket, x) :: pushes =>
    (⟨{ q with items := items ++ [x], pushes := pushes }, [(ticket, .entered)]⟩, some m)
  | [], (ticket, x) :: pushes => (⟨{ q with pushes := pushes }, [(ticket, .entered)]⟩, some x)
  | [], [] => (⟨q, []⟩, none)

/-- Takes the oldest message, or waits for one. -/
def await (q : Queue τ α) (ticket : τ) : Change τ α × Option α :=
  match q.take with
  | (change, some m) => (change, some m)
  | (_, none) => (⟨{ q with takers := q.takers ++ [ticket] }, []⟩, none)

/-- Fails every waiting push once nobody can take any more. -/
def closeIfAbandoned (q : Queue τ α) : Change τ α :=
  if q.isOpen then ⟨q, []⟩
  else ⟨{ q with pushes := [] }, q.pushes.map fun p => (p.1, .closed)⟩

/-- Takes back the pushes that wait under a ticket. -/
def withdraw [DecidableEq τ] (q : Queue τ α) (ticket : τ) : Queue τ α :=
  { q with pushes := q.pushes.filter fun p => p.1 ≠ ticket }

/-- Nobody waits for a message under the ticket any more. -/
def forgo [DecidableEq τ] (q : Queue τ α) (ticket : τ) : Queue τ α :=
  { q with takers := q.takers.filter fun t => t ≠ ticket }

/-- Gives up all waiting under a ticket: what is left, and how many gave up. -/
def giveUp [DecidableEq τ] (q : Queue τ α) (ticket : τ) : Change τ α × Nat :=
  (((q.withdraw ticket).forgo ticket).closeIfAbandoned,
    (q.pushes.countP fun p => p.1 = ticket) + q.takers.countP fun t => t = ticket)

/-- The owner goes. -/
def disown (q : Queue τ α) : Change τ α := { q with owned := false }.closeIfAbandoned

/-- One more receiver handle. -/
def addReceiver (q : Queue τ α) : Queue τ α := { q with receivers := q.receivers + 1 }

/-- One receiver handle less. -/
def dropReceiver (q : Queue τ α) : Change τ α :=
  { q with receivers := q.receivers - 1 }.closeIfAbandoned

/-- The messages that wait for a place under a ticket, the oldest first. -/
def waitingOf [DecidableEq τ] (q : Queue τ α) (ticket : τ) : List α :=
  (q.pushes.filter fun p => p.1 = ticket).map (·.2)

/-- All messages in the queue and before it, in the order in which they will be taken. -/
def upcoming (q : Queue τ α) : List α := q.items ++ q.pushes.map (·.2)

end Queue

end TopicFeed
