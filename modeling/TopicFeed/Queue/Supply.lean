import TopicFeed.Queue.Ledger

/-!
# Those who supply a queue

Messages come through sender handles. Some are lent to those who push, and one the queue keeps for
itself as long as it is there: as long as it has an owner, or a taker waits, who keeps it alive.
Once there is no sender and no message, none can come any more, and whoever waits for one is told
so.
-/

namespace TopicFeed.Queue

variable {τ α : Type} [DecidableEq τ]

/-- What is done about a queue: an action on it, or something with a sender handle. -/
inductive Deed (τ α : Type) where
  | act (action : Action τ α)
  /-- A sender handle is made, from the queue or from another one. -/
  | lend
  /-- A sender handle goes. -/
  | giveBack
  deriving DecidableEq, Repr

/-- The action on the queue. -/
def Deed.action? : Deed τ α → Option (Action τ α)
  | act a => some a
  | lend | giveBack => none

/-- The queue is still there. -/
def isKept (q : Queue τ α) : Bool := q.owned || !q.takers.isEmpty

/-- A queue that is watched, the sender handles that are lent, and the tickets of the takers who
were told that no message would come any more. -/
structure Supplied (τ α : Type) where
  watched : Watched τ α
  lent : Nat := 0
  turnedAway : List τ := []

namespace Supplied

/-- The sender handles, the one of the queue included. -/
def senders (s : Supplied τ α) : Nat := s.lent + if s.watched.queue.isKept then 1 else 0

/-- Turns away those who wait for a message that nobody could send. -/
def dismiss (s : Supplied τ α) : Supplied τ α :=
  let q := s.watched.queue
  if s.senders = 0 ∧ q.upcoming.isEmpty then
    { s with
      watched := { s.watched with queue := { q with takers := [] } }
      turnedAway := s.turnedAway ++ q.takers }
  else s

/-- One deed further. -/
def act (s : Supplied τ α) : Deed τ α → Supplied τ α
  | .act a => { s with watched := s.watched.act a }.dismiss
  | .lend => if s.senders = 0 then s else { s with lent := s.lent + 1 }
  | .giveBack => { s with lent := s.lent - 1 }.dismiss

end Supplied

/-- What a list of deeds about a new queue leads to. -/
def supplied (capacity : Nat) (deeds : List (Deed τ α)) : Supplied τ α :=
  deeds.foldl Supplied.act { watched := watched capacity [] }

end TopicFeed.Queue
