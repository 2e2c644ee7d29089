import TopicFeed.Loop
import TopicFeed.Settings

/-!
# Clients

A client publishes to topics, polls them and follows them. The messages of all topics that it
follows arrive in one queue. Every call checks its topic and then its options before it does
anything else, so a call that fails a check leaves the client as it was.

Each subscription is served by a loop of its own. The moves of the loops and the calls may follow
each other in any order; `settle` lets every loop move until it is at rest.
-/

namespace TopicFeed

/-- A client: its settings, what its loops share, the live subscriptions, and every loop ever
started, each at the place of its ticket. -/
structure Client where
  settings : Settings
  hub : Hub
  registry : Registry Ticket := {}
  loops : List Loop := []

namespace Client

/-- A new client. Its queue has at least one place. -/
def new (settings : Settings) (network : Network) : Client :=
  { settings, hub := { network, queue := { capacity := max settings.queueCapacity 1 } } }

/-! ### Loops -/

/-- Lets one loop do something. -/
def withLoop (c : Client) (ticket : Ticket) (act : Loop → Hub → Hub × Loop) : Client :=
  match c.loops[ticket]? with
  | none => c
  | some l =>
    let (hub, l) := act l c.hub
    { c with hub, loops := c.loops.set ticket l }

/-- One move of a loop. -/
def step (c : Client) (ticket : Ticket) : Client := c.withLoop ticket Loop.step

/-- Time passes for a loop. -/
def elapse (c : Client) (ticket : Ticket) (ms : Nat) : Client :=
  c.withLoop ticket fun l hub => (hub, l.elapse ms)

/-- The pause of a loop is over. -/
def retry (c : Client) (ticket : Ticket) : Client :=
  c.withLoop ticket fun l hub => (hub, l.retry)

/-- Tells a loop to stop. -/
def cancel (c : Client) (ticket : Ticket) : Client :=
  c.withLoop ticket fun l hub => (hub, l.cancel)

/-- The tickets of all loops. -/
def tickets (c : Client) : List Ticket := List.range c.loops.length

/-- Lets every loop move until it is at rest, the oldest first. -/
def settle (c : Client) : Client :=
  c.tickets.foldl (fun c ticket => c.withLoop ticket Loop.settle) c

/-- All pauses are over. -/
def retryAll (c : Client) : Client := c.tickets.foldl retry c

/-! ### Calls -/

/-- The URL of a topic. -/
def resolve (c : Client) (topic : String) : Except ClientError String :=
  Topic.resolve topic c.settings.defaultHost

/-- Publishes to a topic. -/
def publish (c : Client) (topic : String) (body : Bytes) (options : List RequestOption) :
    Client × Call (Except ClientError Message) :=
  match c.resolve topic with
  | .error e => (c, .returned (.error e))
  | .ok url =>
    let (network, result) := c.hub.network.publish url body options
    ({ c with hub := { c.hub with network } }, result)

/-- Polls a topic. -/
def poll (c : Client) (topic : String) (options : List RequestOption) : Client × Call Polled :=
  match c.resolve topic with
  | .error e => (c, .returned { error := some e })
  | .ok url =>
    let (network, result) := c.hub.network.poll url options
    ({ c with hub := { c.hub with network } }, result)

/-- Follows a topic, under the first of the drawn ids that is free. The loop is started but does
not move yet. Without a runtime no loop can be started; this is checked last. The call waits while
no id that is free has been drawn. -/
def subscribe (c : Client) (drawn : List SubscriptionId) (hasRuntime : Bool) (topic : String)
    (options : List RequestOption) : Client × Call (Except ClientError SubscriptionId) :=
  match c.resolve topic with
  | .error e => (c, .returned (.error e))
  | .ok url =>
    match Request.Spec.ofOptions options with
    | .error f => (c, .returned (.error (.invalidOption f)))
    | .ok _ =>
      if !hasRuntime then (c, .returned (.error .noRuntime))
      else
        let ticket := c.loops.length
        match c.registry.insert? drawn url fun _ => ticket with
        | none => (c, .waiting)
        | some (id, registry) =>
          let who : Listener :=
            { topicUrl := url, subscriptionId := id, options, delay := c.settings.delay }
          ({ c with registry, loops := c.loops ++ [{ who, ticket }] }, .returned (.ok id))

/-- Stops following a topic. An unknown id changes nothing. -/
def unsubscribe (c : Client) (id : SubscriptionId) : Client :=
  match c.registry.remove id with
  | (none, _) => c
  | (some s, registry) => { c with registry }.cancel s.task

/-- Stops following all topics. -/
def unsubscribeAll (c : Client) : Client :=
  let (removed, registry) := c.registry.removeAll
  removed.foldl (fun c s => c.cancel s.task) { c with registry }

/-- A consumer took from the queue, or waits for a message. The push that entered in the place of
what was taken goes on. -/
def afterTake (c : Client) (taken : Queue.Change Ticket Message × Option Message) :
    Client × Option Message :=
  let (change, m) := taken
  let c := { c with hub := c.hub.accept change }
  (change.woken.foldl (fun c w => c.withLoop w.1 (Loop.wake w.2)) c, m)

/-- Takes the next message, if one is there. All handles compete for the same messages. -/
def tryNext (c : Client) : Client × Option Message := c.afterTake c.hub.queue.take

/-- Takes the next message, or waits for one under a ticket of the consumer. -/
def next (c : Client) (taker : Ticket) : Client × Option Message :=
  c.afterTake (c.hub.queue.await taker)

/-- The queue is changed by a consumer. -/
def withQueue (c : Client) (act : Queue Ticket Message → Queue Ticket Message) : Client :=
  { c with hub := { c.hub with queue := act c.hub.queue } }

/-- A consumer no longer waits for a message. -/
def forgo (c : Client) (taker : Ticket) : Client := c.withQueue fun q => q.forgo taker

/-- Hands out one more handle that messages can be taken through. -/
def receiver (c : Client) : Client := c.withQueue Queue.addReceiver

/-- Such a handle goes. -/
def dropReceiver (c : Client) : Client := c.withQueue fun q => q.dropReceiver.queue

/-- Stops following all topics and waits for the loops to exit. -/
def shutdown (c : Client) : Client := c.unsubscribeAll.settle

/-- The client goes: it stops following all topics, and its own handle of the queue goes. -/
def drop (c : Client) : Client := c.unsubscribeAll.withQueue fun q => q.disown.queue

/-! ### Waiting for others -/

/-- A bound on the messages that can still be taken from a client at rest: those that wait, and the
bytes of the feeds at hand. -/
def backlog (c : Client) : Nat :=
  c.loops.foldl (fun n l =>
    match l.phase with
    | .attempting (.reading f) | .attempting (.pushing f) => n + f.size
    | _ => n) c.hub.queue.upcoming.length

/-- Takes messages until none is left, at most the given number. The loops move in between. -/
def takeAll (c : Client) : Nat → Client × List Message
  | 0 => (c, [])
  | more + 1 =>
    match c.tryNext with
    | (c, none) => (c, [])
    | (c, some m) =>
      let (c, ms) := c.settle.takeAll more
      (c, m :: ms)

/-- Takes all messages that there are. -/
def drain (c : Client) : Client × List Message :=
  let c := c.settle
  c.takeAll (c.backlog + 1)

/-- The number of requests for a path so far. -/
def requestCount (c : Client) (path : String) : Nat := c.hub.network.paths.count path

/-- Pause after pause, until so many requests for a path have arrived. There is no result if that
never comes: a round of attempts that brings none is followed by others like it. -/
def awaitRequests (c : Client) (path : String) (count : Nat) : Option Client :=
  if h : count ≤ c.requestCount path then some c
  else
    let next := c.retryAll.settle
    if hmore : c.requestCount path < next.requestCount path then
      have : count - next.requestCount path < count - c.requestCount path := by omega
      next.awaitRequests path count
    else none
termination_by count - c.requestCount path
decreasing_by exact this

end Client

end TopicFeed
