import TopicFeed.Client
import TopicFeed.Loop.Move

/-!
# Moves of a client

Everything that can happen to a client, as data: a loop moves, time passes for it, somebody calls,
a consumer takes a message or waits for one. Moves may follow each other in any order. A course is
what a list of moves leads to, with the messages that consumers have received; the trace of a loop
is what could be seen of it on the way.
-/

namespace TopicFeed.Client

/-- What happens to a client. -/
inductive Move where
  | step (ticket : Ticket)
  | elapse (ticket : Ticket) (ms : Nat)
  | publish (topic : String) (body : Bytes) (options : List RequestOption)
  | poll (topic : String) (options : List RequestOption)
  | subscribe (drawn : List SubscriptionId) (hasRuntime : Bool) (topic : String)
      (options : List RequestOption)
  | unsubscribe (id : SubscriptionId)
  | unsubscribeAll
  /-- A consumer takes what is there, through any handle. -/
  | tryNext
  /-- A consumer takes what is there, or waits under a ticket of its own. -/
  | next (taker : Ticket)
  | forgo (taker : Ticket)
  | receiver
  | dropReceiver
  deriving DecidableEq

/-- The effect of a move, and the message that it returns to a consumer. -/
def act (c : Client) : Move → Client × Option Message
  | .step t => (c.step t, none)
  | .elapse t ms => (c.elapse t ms, none)
  | .publish topic body options => ((c.publish topic body options).1, none)
  | .poll topic options => ((c.poll topic options).1, none)
  | .subscribe drawn hasRuntime topic options =>
    ((c.subscribe drawn hasRuntime topic options).1, none)
  | .unsubscribe id => (c.unsubscribe id, none)
  | .unsubscribeAll => (c.unsubscribeAll, none)
  | .tryNext => c.tryNext
  | .next taker => c.next taker
  | .forgo taker => (c.forgo taker, none)
  | .receiver => (c.receiver, none)
  | .dropReceiver => (c.dropReceiver, none)

/-- What can be seen of one loop when it makes a move of its own in a hub. -/
def loopEvents (c : Client) (t : Ticket) (hub : Hub) (move : Loop.Move) : List Loop.Event :=
  match c.loops[t]? with
  | none => []
  | some l => l.events hub move

/-- What can be seen of one loop when a consumer takes. -/
def takeEvents (c : Client) (t : Ticket) (change : Queue.Change Ticket Message) :
    List Loop.Event :=
  (change.woken.filter fun w => w.1 = t).flatMap fun w =>
    c.loopEvents t (c.hub.accept change) (.wake w.2)

/-- What can be seen of one loop in a move of the client. -/
def events (c : Client) (t : Ticket) : Move → List Loop.Event
  | .step t' => if t' = t then c.loopEvents t c.hub .step else []
  | .elapse t' ms => if t' = t then c.loopEvents t c.hub (.elapse ms) else []
  | .unsubscribe id =>
    if (c.registry.remove id).1.any (·.task == t) then c.loopEvents t c.hub .cancel else []
  | .unsubscribeAll =>
    if c.registry.removeAll.1.any (·.task == t) then c.loopEvents t c.hub .cancel else []
  | .tryNext => c.takeEvents t c.hub.queue.take.1
  | .next taker => c.takeEvents t (c.hub.queue.await taker).1
  | .publish .. | .poll .. | .subscribe .. | .forgo _ | .receiver | .dropReceiver => []

/-- A client in the course of its moves, and all messages that consumers have received, in
order. -/
structure Course where
  client : Client
  received : List Message := []

/-- One move further. Consumers receive what the move returns, and what it hands to those who
waited. -/
def Course.move (r : Course) (m : Move) : Course :=
  let (c, returned) := r.client.act m
  let handed := (c.hub.handed.drop r.client.hub.handed.length).map (·.2)
  ⟨c, r.received ++ returned.toList ++ handed⟩

/-- Any number of moves further. -/
def Course.run (r : Course) (moves : List Move) : Course := moves.foldl Course.move r

/-- What can be seen of one loop in a list of moves. -/
def Course.trace (r : Course) (t : Ticket) : List Move → List Loop.Event
  | [] => []
  | m :: moves => r.client.events t m ++ (r.move m).trace t moves

/-- The course of a new client. -/
def course (settings : Settings) (network : Network) (moves : List Move) : Course :=
  Course.run ⟨Client.new settings network, []⟩ moves

/-- What can be seen of one loop in the course of a new client. -/
def trace (settings : Settings) (network : Network) (t : Ticket) (moves : List Move) :
    List Loop.Event :=
  Course.trace ⟨Client.new settings network, []⟩ t moves

end TopicFeed.Client
