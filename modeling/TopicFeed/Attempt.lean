import TopicFeed.Exchange
import TopicFeed.Queue
import TopicFeed.Registry
import TopicFeed.Topic

/-!
# Attempts

One attempt to follow a topic: ask for its feed, then push every notification into the queue in
the order of the feed. A push into a full queue makes the attempt wait, and with it the feed. The
attempt ends with the feed, or with the first thing that goes wrong.

An attempt is a machine that moves one event at a time, so that several of them can share a queue
and a network, and so that it can be given up between any two moves.
-/

namespace TopicFeed

open Network

/-- Who follows a topic: its URL, the id under which messages are delivered, the options of the
request, and the pause between two attempts, in milliseconds. -/
structure Listener where
  topicUrl : String
  subscriptionId : SubscriptionId
  options : List RequestOption
  delay : Nat := 10000
  deriving DecidableEq, Repr

/-- The number under which an attempt waits for a place in the queue. -/
abbrev Ticket := Nat

/-- The topic of a listener as it is shown in a log. -/
def Listener.name (l : Listener) : String := Topic.short l.topicUrl

/-- A line of the log: an attempt failed, or a listener is done, with the error of its last
attempt if that one failed. -/
inductive LogEntry where
  | failed (topic : String) (error : ClientError)
  | exited (topic : String) (last : Option ClientError)
  deriving DecidableEq, Repr

/-- The text of a line of the log, behind its level. -/
def LogEntry.text : LogEntry → String
  | failed topic e => "WARN " ++ topic ++ " Connection failed: " ++ e.message
  | exited topic none => "INFO " ++ topic ++ " Connection exited"
  | exited topic (some e) =>
    "INFO " ++ topic ++ " Connection exited (last error: " ++ e.message ++ ")"

/-- What all listeners of a client share, with the messages that went to those who waited for one,
each with the ticket of its taker. -/
structure Hub where
  network : Network
  queue : Queue Ticket Message
  log : List LogEntry := []
  handed : List (Ticket × Message) := []

/-- The hub behind a change of its queue. -/
def Hub.accept (hub : Hub) (change : Queue.Change Ticket Message) : Hub :=
  { hub with queue := change.queue, handed := hub.handed ++ change.handed }

/-- An attempt under way: about to ask for the feed, with the answer on its way, reading the feed,
waiting with a push for a place in the queue, or waiting for bytes that never come. -/
inductive Attempt where
  | connecting
  | awaiting (answer : Opened)
  | reading (feed : Feed)
  | pushing (feed : Feed)
  | stalled
  deriving DecidableEq, Repr

namespace Attempt

/-- What a move leads to: the attempt goes on, or it is over, with an error if it failed. -/
inductive Turn where
  | goesOn (attempt : Attempt)
  | over (error : Option ClientError)
  deriving DecidableEq, Repr

/-- Nothing moves any more unless somebody else does. -/
def isAtRest : Attempt → Bool
  | connecting | awaiting _ | reading _ => false
  | pushing _ | stalled => true

/-- How the connection of an attempt would end by itself. -/
def ending : Attempt → Ending
  | connecting | awaiting (.failed _) => .closed
  | awaiting (.feed f) | reading f | pushing f => f.ending
  | awaiting .waits | stalled => .silent

/-- Asks for the feed. -/
def connect (who : Listener) (hub : Hub) : Hub × Turn :=
  let (network, answer) := hub.network.openFeed who.topicUrl who.options
  ({ hub with network }, .goesOn (.awaiting answer))

/-- The answer is there. -/
def receive (hub : Hub) : Opened → Hub × Turn
  | .feed f => (hub, .goesOn (.reading f))
  | .failed e => (hub, .over (some e))
  | .waits => (hub, .goesOn .stalled)

/-- Hands a message to the queue, with the feed behind it. -/
def hand (ticket : Ticket) (m : Message) (f : Feed) (hub : Hub) : Hub × Turn :=
  match hub.queue.push ticket m with
  | (change, .entered) => (hub.accept change, .goesOn (.reading f))
  | (change, .waiting) => (hub.accept change, .goesOn (.pushing f))
  | (_, .closed) => ({ hub with network := hub.network.leave f.ending }, .over (some .queueClosed))

/-- Reads one event of the feed. -/
def read (who : Listener) (ticket : Ticket) (f : Feed) (hub : Hub) : Hub × Turn :=
  match f.arrival who.topicUrl who.subscriptionId with
  | .notification m rest => hand ticket m rest hub
  | .control rest => (hub, .goesOn (.reading rest))
  | .ended => (hub, .over none)
  | .failed e => ({ hub with network := hub.network.leave f.ending }, .over (some e))
  | .waits => (hub, .goesOn .stalled)

/-- One move. -/
def step (who : Listener) (ticket : Ticket) (hub : Hub) : Attempt → Hub × Turn
  | connecting => connect who hub
  | awaiting answer => receive hub answer
  | reading f => read who ticket f hub
  | pushing f => (hub, .goesOn (pushing f))
  | stalled => (hub, .goesOn stalled)

/-- What becomes of an attempt that waited with a push. -/
def woken (hub : Hub) (outcome : Queue.Wake Message) : Attempt → Hub × Turn
  | pushing f =>
    match outcome with
    | .closed => ({ hub with network := hub.network.leave f.ending }, .over (some .queueClosed))
    | .entered | .took _ => (hub, .goesOn (.reading f))
  | a => (hub, .goesOn a)

/-- A measure of the moves that are left: first the request and its answer, then the bytes of the
feed. -/
def rank : Attempt → Nat × Nat
  | connecting => (2, 0)
  | awaiting _ => (1, 0)
  | reading f => (0, f.size + 1)
  | pushing _ | stalled => (0, 0)

theorem rank_hand (ticket : Ticket) (m : Message) (f : Feed) (hub : Hub) {b : Attempt}
    (h : (hand ticket m f hub).2 = .goesOn b) : b = .reading f ∨ b = .pushing f := by
  unfold hand at h
  split at h
  · exact .inl (by simpa using h.symm)
  · exact .inr (by simpa using h.symm)
  · simp at h

/-- Every move of an attempt that is not at rest uses up what is left. -/
theorem rank_step {who : Listener} {ticket : Ticket} {hub : Hub} {a b : Attempt}
    (hrest : a.isAtRest = false) (h : (step who ticket hub a).2 = .goesOn b) :
    Prod.Lex (· < ·) (· < ·) b.rank a.rank := by
  cases a with
  | connecting =>
    simp only [step, connect, Turn.goesOn.injEq] at h
    exact h ▸ Prod.Lex.left _ _ (by decide)
  | awaiting answer =>
    cases answer with
    | feed f =>
      simp only [step, receive, Turn.goesOn.injEq] at h
      exact h ▸ Prod.Lex.left _ _ (by decide)
    | failed e => simp [step, receive] at h
    | waits =>
      simp only [step, receive, Turn.goesOn.injEq] at h
      exact h ▸ Prod.Lex.left _ _ (by decide)
  | reading f =>
    simp only [step, read] at h
    split at h
    · next hm =>
      have hlt := Feed.size_lt_of_notification hm
      rcases rank_hand _ _ _ _ h with rfl | rfl
      · exact Prod.Lex.right _ (Nat.succ_lt_succ hlt)
      · exact Prod.Lex.right _ (Nat.succ_pos _)
    · next hc =>
      have hlt := Feed.size_lt_of_control hc
      simp only [Turn.goesOn.injEq] at h
      exact h ▸ Prod.Lex.right _ (Nat.succ_lt_succ hlt)
    · simp at h
    · simp at h
    · simp only [Turn.goesOn.injEq] at h
      exact h ▸ Prod.Lex.right _ (Nat.succ_pos _)
  | pushing f => simp [isAtRest] at hrest
  | stalled => simp [isAtRest] at hrest

/-- Moves on until the attempt is over or at rest. -/
def run (who : Listener) (ticket : Ticket) (hub : Hub) (a : Attempt) : Hub × Turn :=
  if hrest : a.isAtRest then (hub, .goesOn a)
  else
    match h : step who ticket hub a with
    | (hub, .over e) => (hub, .over e)
    | (hub, .goesOn b) =>
      have : Prod.Lex (· < ·) (· < ·) b.rank a.rank :=
        rank_step (by simpa using hrest) (congrArg Prod.snd h)
      run who ticket hub b
termination_by a.rank
decreasing_by assumption

end Attempt

end TopicFeed
