import TopicFeed.Attempt

/-!
# Loops

A listener keeps its topic: it makes one attempt after the other, with a pause of fixed length
between any two, however an attempt ended and without a limit. It stops only when it is told to.
That is looked at before every move, so a listener that is told to stop makes no further move but
the last one, which gives up what it was doing.
-/

namespace TopicFeed

/-- What a listener is doing. A pause has so many milliseconds left. -/
inductive Phase where
  | attempting (attempt : Attempt)
  | pausing (left : Nat)
  | exited
  deriving DecidableEq, Repr

/-- A listener at work: who it is, under which ticket it waits in the queue, what it is doing, the
error of its last attempt if that one failed, and whether it was told to stop. -/
structure Loop where
  who : Listener
  ticket : Ticket
  phase : Phase := .attempting .connecting
  lastError : Option ClientError := none
  canceled : Bool := false
  deriving DecidableEq, Repr

namespace Loop

/-- Notes a line in the log. -/
def note (hub : Hub) (entry : LogEntry) : Hub := { hub with log := hub.log ++ [entry] }

/-- What a move of an attempt means to its listener: it goes on, or it pauses after an attempt that
is over. A failure is noted. -/
def take (l : Loop) : Hub × Attempt.Turn → Hub × Loop
  | (hub, .goesOn a) => (hub, { l with phase := .attempting a })
  | (hub, .over none) => (hub, { l with phase := .pausing l.who.delay, lastError := none })
  | (hub, .over (some e)) =>
    (note hub (.failed l.who.name e),
      { l with phase := .pausing l.who.delay, lastError := some e })

/-- The last move. -/
def exit (l : Loop) (hub : Hub) : Hub × Loop :=
  (note hub (.exited l.who.name l.lastError), { l with phase := .exited })

/-- Stops. An attempt under way is given up and counts as healthy: its push is withdrawn and its
connection left. -/
def stop (l : Loop) (hub : Hub) : Hub × Loop :=
  match l.phase with
  | .exited => (hub, l)
  | .pausing _ => l.exit hub
  | .attempting a =>
    let hub := { hub with
      queue := hub.queue.withdraw l.ticket
      network := hub.network.leave a.ending }
    { l with lastError := none }.exit hub

/-- One move. Whether to stop is looked at first. -/
def step (l : Loop) (hub : Hub) : Hub × Loop :=
  if l.canceled then l.stop hub
  else match l.phase with
    | .attempting a => l.take (a.step l.who l.ticket hub)
    | .pausing _ | .exited => (hub, l)

/-- Time passes. A pause that is over leads to the next attempt, unless the listener is to
stop. -/
def elapse (ms : Nat) (l : Loop) : Loop :=
  match l.phase with
  | .pausing left =>
    if l.canceled then l
    else if left ≤ ms then { l with phase := .attempting .connecting }
    else { l with phase := .pausing (left - ms) }
  | .attempting _ | .exited => l

/-- The pause is over. -/
def retry (l : Loop) : Loop :=
  match l.phase with
  | .pausing left => l.elapse left
  | .attempting _ | .exited => l

/-- Tells the listener to stop. -/
def cancel (l : Loop) : Loop := { l with canceled := true }

/-- The listener learns what its waiting push has come to. Whether to stop is looked at first. -/
def wake (outcome : Queue.Wake Message) (l : Loop) (hub : Hub) : Hub × Loop :=
  if l.canceled then l.stop hub
  else match l.phase with
    | .attempting a => l.take (a.woken hub outcome)
    | .pausing _ | .exited => (hub, l)

/-- Nothing moves unless somebody else does. -/
def isAtRest (l : Loop) : Bool :=
  match l.phase with
  | .exited => true
  | .pausing _ => !l.canceled
  | .attempting a => !l.canceled && a.isAtRest

/-- A measure of the moves that are left before the listener is at rest. -/
def rank (l : Loop) : Nat × Nat :=
  match l.phase with
  | .exited => (0, 0)
  | .pausing _ => (if l.canceled then 1 else 0, 0)
  | .attempting a => (a.rank.1 + 1, a.rank.2)

/-- Every move of a listener that is not at rest uses up what is left. -/
theorem rank_step {l : Loop} (hub : Hub) (hrest : l.isAtRest = false) :
    Prod.Lex (· < ·) (· < ·) (l.step hub).2.rank l.rank := by
  obtain ⟨who, ticket, phase, lastError, canceled⟩ := l
  cases phase with
  | exited => simp [isAtRest] at hrest
  | pausing =>
    cases canceled with
    | false => simp [isAtRest] at hrest
    | true => exact Prod.Lex.left _ _ Nat.zero_lt_one
  | attempting a =>
    cases canceled with
    | true => exact Prod.Lex.left _ _ (Nat.succ_pos _)
    | false =>
      have hrest' : a.isAtRest = false := by simpa [isAtRest] using hrest
      simp only [step, Bool.false_eq_true, if_false]
      match h : a.step who ticket hub with
      | (_, .over none) => exact Prod.Lex.left _ _ (Nat.succ_pos _)
      | (_, .over (some _)) => exact Prod.Lex.left _ _ (Nat.succ_pos _)
      | (_, .goesOn b) =>
        have hlt := Attempt.rank_step hrest' (congrArg Prod.snd h)
        rw [Prod.lex_def] at hlt
        simp only [take, rank]
        rcases hlt with hlt | ⟨heq, hlt⟩
        · exact Prod.Lex.left _ _ (Nat.succ_lt_succ hlt)
        · rw [heq]
          exact Prod.Lex.right _ hlt

/-- Moves on until the listener is at rest. -/
def settle (l : Loop) (hub : Hub) : Hub × Loop :=
  if hrest : l.isAtRest then (hub, l)
  else
    let next := l.step hub
    have : Prod.Lex (· < ·) (· < ·) next.2.rank l.rank := rank_step hub (by simpa using hrest)
    next.2.settle next.1
termination_by l.rank
decreasing_by assumption

/-! ### One listener alone -/

/-- When a listener is told to stop: before it begins, in the pause after the given number of
failures, or once it is at rest for good. -/
inductive StopTime where
  | before
  | afterFailures (count : Nat)
  | atRest
  deriving DecidableEq, Repr

/-- Tells a listener to stop and lets it. -/
def finish (l : Loop) (hub : Hub) : Hub × Loop := l.cancel.settle hub

/-- Attempts and pauses until the listener is to stop. There is no result if it never is, or not
within the given number of attempts. -/
def attempts (stopTime : StopTime) (l : Loop) (hub : Hub) : Nat → Option (Hub × Loop)
  | 0 => none
  | more + 1 =>
    let (hub, l) := l.settle hub
    let failures := (hub.log.filter fun | .failed .. => true | .exited .. => false).length
    match l.phase, stopTime with
    | .pausing _, .afterFailures count =>
      if failures = count ∧ l.lastError.isSome then some (l.finish hub)
      else attempts stopTime l.retry hub more
    | .pausing _, _ => attempts stopTime l.retry hub more
    | _, .afterFailures _ => none
    | _, _ => some (l.finish hub)

/-- The life of a listener. Every attempt takes a reply from the script or is the last one, unless
it fails over and over again before a request arrives. -/
def live (stopTime : StopTime) (who : Listener) (hub : Hub) : Option (Hub × Loop) :=
  let l : Loop := { who, ticket := 0 }
  match stopTime with
  | .before => some (l.finish hub)
  | .afterFailures count => attempts stopTime l hub (hub.network.script.size + count + 1)
  | .atRest => attempts stopTime l hub (hub.network.script.size + 1)

end Loop

end TopicFeed
