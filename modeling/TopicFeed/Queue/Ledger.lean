import TopicFeed.Queue.Action

/-!
# The ledger of a queue

What somebody can write down who sees the actions on a queue, their answers, and what those who
wait are told, but nothing of the queue itself: how every push stands, how every taker stands who
had to wait, and which messages went to takers.
-/

namespace TopicFeed.Queue

/-- How somebody stands who came to a queue: he waits under a ticket, he was served, he gave up, or
he was refused because nobody could take any more. -/
inductive Standing (τ : Type) where
  | waits (ticket : τ)
  | served
  | gaveUp
  | refused
  deriving DecidableEq, Repr

namespace Standing

variable {τ β : Type}

/-- The ticket of one who waits. -/
def ticket? : Standing τ → Option τ
  | waits t => some t
  | served | gaveUp | refused => none

@[simp] theorem ticket?_waits (t : τ) : (waits t).ticket? = some t := rfl

@[simp] theorem ticket?_served : (served : Standing τ).ticket? = none := rfl

@[simp] theorem ticket?_gaveUp : (gaveUp : Standing τ).ticket? = none := rfl

@[simp] theorem ticket?_refused : (refused : Standing τ).ticket? = none := rfl

variable [DecidableEq τ]

/-- The first of those who wait under the ticket stands otherwise now. -/
def settle (ticket : τ) (now : Standing τ) : List (β × Standing τ) → List (β × Standing τ)
  | [] => []
  | x :: xs => if x.2 = waits ticket then (x.1, now) :: xs else x :: settle ticket now xs

/-- All who wait under the ticket give up. -/
def abandon (ticket : τ) (xs : List (β × Standing τ)) : List (β × Standing τ) :=
  xs.map fun x => if x.2 = waits ticket then (x.1, gaveUp) else x

end Standing

/-- A ledger: the messages of all pushes and how these stand, in the order in which they began; the
same of all takers who had to wait, each with his ticket; and the messages that went to takers, in
the order in which they did. -/
structure Ledger (τ α : Type) where
  pushes : List (α × Standing τ) := []
  takers : List (τ × Standing τ) := []
  handed : List α := []
  deriving DecidableEq, Repr

variable {τ α : Type}

/-- The message that an action pushes. -/
def Action.message? : Action τ α → Option α
  | .push _ m | .tryPush m => some m
  | .take | .await _ | .receiver | .receive | .dropReceiver | .giveUp _ | .disown => none

/-- How a push stands at first, by its answer. Without a ticket it does not wait. -/
def Answer.standing (ticket? : Option τ) : Answer α → Standing τ
  | .pushed .entered => .served
  | .pushed .waiting => ticket?.elim .gaveUp .waits
  | .pushed .closed => .refused
  | _ => .gaveUp

namespace Ledger

variable [DecidableEq τ]

/-- Writes down an action and its answer. -/
def note (l : Ledger τ α) : Action τ α → Answer α → Ledger τ α
  | .push t m, answer => { l with pushes := l.pushes ++ [(m, answer.standing (some t))] }
  | .tryPush m, answer => { l with pushes := l.pushes ++ [(m, answer.standing none)] }
  | .await t, .waiting => { l with takers := l.takers ++ [(t, .waits t)] }
  | .giveUp t, _ =>
    { l with pushes := Standing.abandon t l.pushes, takers := Standing.abandon t l.takers }
  | _, .taken m => { l with handed := l.handed ++ m.toList }
  | _, _ => l

/-- Writes down what one who waits is told. -/
def hear (l : Ledger τ α) : τ × Wake α → Ledger τ α
  | (t, .entered) => { l with pushes := Standing.settle t .served l.pushes }
  | (t, .closed) => { l with pushes := Standing.settle t .refused l.pushes }
  | (t, .took m) =>
    { l with takers := Standing.settle t .served l.takers, handed := l.handed ++ [m] }

end Ledger

/-- A queue, and the ledger that is kept of it. -/
structure Watched (τ α : Type) where
  queue : Queue τ α
  ledger : Ledger τ α := {}

variable [DecidableEq τ]

/-- One action further. -/
def Watched.act (w : Watched τ α) (a : Action τ α) : Watched τ α :=
  let (change, answer) := w.queue.act a
  { queue := change.queue, ledger := change.woken.foldl Ledger.hear (w.ledger.note a answer) }

/-- What a list of actions on a new queue leads to. -/
def watched (capacity : Nat) (actions : List (Action τ α)) : Watched τ α :=
  actions.foldl Watched.act { queue := { capacity } }

end TopicFeed.Queue
