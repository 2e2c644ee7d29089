import TopicFeed.Loop

/-!
# Moves of a listener

Everything that can happen to a listener, as data, and what can be seen of it: the events of a
move. A listener may make its moves in any hub, since others change the hub in between.
-/

namespace TopicFeed.Loop

/-- What happens to a listener: it moves, its waiting push comes to an end, time passes, or it is
told to stop. -/
inductive Move where
  | step
  | wake (outcome : Queue.Wake Message)
  | elapse (ms : Nat)
  | cancel
  deriving DecidableEq, Repr

/-- The effect of a move. -/
def act (l : Loop) (hub : Hub) : Move → Hub × Loop
  | .step => l.step hub
  | .wake outcome => l.wake outcome hub
  | .elapse ms => (hub, l.elapse ms)
  | .cancel => (hub, l.cancel)

/-- What can be seen of a move. -/
inductive Event where
  /-- An attempt asks for its feed, with at most one request. -/
  | asked
  /-- The feed is there. -/
  | opened (feed : Feed)
  /-- A notification of the feed was read; it goes to the queue next. -/
  | decoded (message : Message)
  /-- An attempt came to its end by itself. -/
  | ended (error : Option ClientError)
  /-- So much time passed in a pause. -/
  | passed (ms : Nat)
  /-- The listener was told to stop, while these messages of it waited for a place. -/
  | told (waiting : List Message)
  /-- The attempt under way was given up, and these messages with it. -/
  | cut (withdrawn : List Message)
  /-- The listener is done, with the error of its last attempt if that one failed. -/
  | exited (last : Option ClientError)
  deriving DecidableEq, Repr

/-- The messages that wait for a place under the ticket of a listener. -/
def waiting (l : Loop) (hub : Hub) : List Message := hub.queue.waitingOf l.ticket

/-- What can be seen of an attempt that moves. -/
def attemptEvents (l : Loop) (hub : Hub) : Attempt → List Event
  | .connecting => [.asked]
  | .awaiting (.feed f) => [.opened f]
  | .awaiting (.failed e) => [.ended (some e)]
  | .awaiting .waits => []
  | .reading f =>
    match f.arrival l.who.topicUrl l.who.subscriptionId with
    | .notification m _ =>
      .decoded m :: match (hub.queue.push l.ticket m).2 with
        | .closed => [.ended (some .queueClosed)]
        | .entered | .waiting => []
    | .control _ | .waits => []
    | .ended => [.ended none]
    | .failed e => [.ended (some e)]
  | .pushing _ | .stalled => []

/-- What can be seen of a listener that stops. -/
def stopEvents (l : Loop) (hub : Hub) : List Event :=
  match l.phase with
  | .attempting _ => [.cut (l.waiting hub), .exited none]
  | .pausing _ => [.exited l.lastError]
  | .exited => []

/-- What can be seen of a move. -/
def events (l : Loop) (hub : Hub) : Move → List Event
  | .step =>
    if l.canceled then l.stopEvents hub
    else match l.phase with
      | .attempting a => l.attemptEvents hub a
      | .pausing _ | .exited => []
  | .wake outcome =>
    if l.canceled then l.stopEvents hub
    else match l.phase, outcome with
      | .attempting (.pushing _), .closed => [.ended (some .queueClosed)]
      | _, _ => []
  | .elapse ms =>
    match l.phase with
    | .pausing _ => if l.canceled then [] else [.passed ms]
    | .attempting _ | .exited => []
  | .cancel => if l.canceled then [] else [.told (l.waiting hub)]

/-- A listener in the course of its moves: what could be seen of it, the requests that it sent and
the lines that it wrote into the log. -/
structure Life where
  loop : Loop
  events : List Event := []
  sent : List Request := []
  entries : List LogEntry := []

/-- One move further, in the hub that the listener finds. -/
def Life.move (x : Life) (m : Hub × Move) : Life :=
  let (hub, l) := x.loop.act m.1 m.2
  { loop := l
    events := x.events ++ x.loop.events m.1 m.2
    sent := x.sent ++ hub.network.requests.drop m.1.network.requests.length
    entries := x.entries ++ hub.log.drop m.1.log.length }

/-- The life of a listener. Between any two moves others may turn the hub into any other. -/
def life (who : Listener) (ticket : Ticket) (moves : List (Hub × Move)) : Life :=
  moves.foldl Life.move { loop := { who, ticket } }

end TopicFeed.Loop
