import TopicFeed.Queue

/-!
# Actions on a queue

Everything that can be done to a queue from outside, as data, and the effect of each action. The
owner's actions need the owner, and receiving needs a receiver handle.

There is one place for a receiver handle here. Handing out another one fills that place again, and
the earlier handle is dropped at once, so that no more than one is ever out. A client has no such
place and counts the handles that it hands out.
-/

namespace TopicFeed.Queue

/-- An action on a queue. A *trying* action leaves nothing waiting behind. -/
inductive Action (τ α : Type) where
  /-- Push, and wait for a place if need be. -/
  | push (ticket : τ) (message : α)
  /-- Push, but rather give up than wait. -/
  | tryPush (message : α)
  /-- The owner takes what is there. -/
  | take
  /-- The owner takes, and waits for a message if need be. -/
  | await (ticket : τ)
  /-- The owner hands out a receiver handle, and the one that was out before is dropped. -/
  | receiver
  /-- Take through the receiver handle. -/
  | receive
  | dropReceiver
  /-- Give up whatever waits under a ticket. -/
  | giveUp (ticket : τ)
  /-- The owner goes. -/
  | disown
  deriving DecidableEq, Repr

/-- What an action answers. -/
inductive Answer (α : Type) where
  | pushed (outcome : Pushed)
  | gaveUp
  | taken (message : Option α)
  | waiting
  | count (n : Nat)
  | done
  | noOwner
  | noReceiver
  deriving DecidableEq, Repr

variable {τ α : Type} [DecidableEq τ]

/-- An action that needs the owner. -/
def ifOwned (q : Queue τ α) (act : Change τ α × Answer α) : Change τ α × Answer α :=
  if q.owned then act else (⟨q, []⟩, .noOwner)

/-- The effect of an action, and its answer. -/
def act (q : Queue τ α) : Action τ α → Change τ α × Answer α
  | .push ticket m =>
    let (change, outcome) := q.push ticket m
    (change, .pushed outcome)
  | .tryPush m =>
    match q.takers with
    | taker :: _ =>
      -- Somebody waits for a message, so the push will not wait, whatever its ticket.
      let (change, outcome) := q.push taker m
      (change, .pushed outcome)
    | [] =>
      if !q.isOpen then (⟨q, []⟩, .pushed .closed)
      else if q.items.length < q.capacity then
        (⟨{ q with items := q.items ++ [m] }, []⟩, .pushed .entered)
      else (⟨q, []⟩, .gaveUp)
  | .take => q.ifOwned (let (change, m) := q.take; (change, .taken m))
  | .await ticket =>
    q.ifOwned <|
      match q.await ticket with
      | (change, some m) => (change, .taken (some m))
      | (change, none) => (change, .waiting)
  | .receiver => q.ifOwned (⟨{ q with receivers := 1 }, []⟩, .done)
  | .receive =>
    if q.receivers = 0 then (⟨q, []⟩, .noReceiver)
    else
      let (change, m) := q.take
      (change, .taken m)
  | .dropReceiver => if q.receivers = 0 then (⟨q, []⟩, .noReceiver) else (q.dropReceiver, .done)
  | .giveUp ticket =>
    let (change, n) := q.giveUp ticket
    (change, .count n)
  | .disown => q.ifOwned (q.disown, .done)

end TopicFeed.Queue
