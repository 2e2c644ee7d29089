import TopicFeed.Client
import TopicFeed.Command
import TopicFeed.Settings.Source
import TopicFeed.Text.Blank

/-!
# Running a command

A command reads the settings, makes a client of them, and prints what it is told by the server, one
text a line. Following topics has no end of its own: the run is over when it is interrupted, after
so many messages.
-/

namespace TopicFeed

namespace Client

/-- Takes so many messages, the loops moving and their pauses passing as often as is needed. There
is no result if some have not come after the given number of pauses. -/
def awaitMessages (c : Client) (count : Nat) : Nat → Option (Client × List Message)
  | 0 =>
    let (c, ms) := c.settle.takeAll count
    if ms.length = count then some (c, ms) else none
  | pauses + 1 =>
    let (c, ms) := c.settle.takeAll count
    if ms.length = count then some (c, ms)
    else
      (c.retryAll.awaitMessages (count - ms.length) pauses).map fun (c, later) => (c, ms ++ later)

/-- Follows topics, each with its options, until one is refused. -/
def follow (drawn : List SubscriptionId) (c : Client) :
    List (String × List RequestOption) → Client × Call (Option ClientError)
  | [] => (c, .returned none)
  | (topic, options) :: rest =>
    match c.subscribe drawn true topic options with
    | (c, .waiting) => (c, .waiting)
    | (c, .returned (.error e)) => (c, .returned (some e))
    | (c, .returned (.ok _)) => c.follow drawn rest

end Client

namespace Command

/-- Why a run fails. -/
inductive Fault where
  | settings (fault : Settings.Fault)
  | call (error : ClientError)
  | nothingToFollow
  deriving DecidableEq, Repr

/-- The wording of a failure. -/
def Fault.message : Fault → String
  | .settings f => f.message
  | .call e => e.message
  | .nothingToFollow => "no topics given and none configured under \x60subscribe\x60"

/-- How a run ends: what it printed, why it failed if it did, and the network that it leaves. -/
structure Outcome where
  printed : List String := []
  fault : Option Fault := none
  network : Network

/-- The exit code of a run. -/
def Outcome.exitCode (o : Outcome) : UInt32 := if o.fault.isSome then 1 else 0

/-- What a run says about its failure. -/
def Outcome.complaint? (o : Outcome) : Option String := o.fault.map fun f => "Error: " ++ f.message

/-- The options for topics that the settings do not list: the credentials of the settings, then
those that are given. -/
def topicOptions (s : Settings) (given : List RequestOption) : List RequestOption :=
  (s.defaultCredentials.map RequestOption.credentials).toList ++ given

/-- The options for a topic that the settings list: those that are given, then its own. -/
def entryOptions (s : Settings) (given : List RequestOption) (e : Settings.Entry) :
    List RequestOption :=
  given ++ s.optionsFor e

/-- The topics to follow, each with its options: those that are named, or else those that the
settings list. -/
def followed (s : Settings) (topics : List String) (given : List RequestOption) :
    List (String × List RequestOption) :=
  if topics.isEmpty then s.subscriptions.map fun e => (e.topic, entryOptions s given e)
  else topics.map fun topic => (topic, topicOptions s given)

/-- Follows topics and prints their messages until it is interrupted. Without an interruption there
is no end. The pauses that are waited for are as many as the replies that the network holds. -/
def runSubscribe (c : Client) (drawn : List SubscriptionId) (interruptAfter : Option Nat)
    (feeds : List (String × List RequestOption)) : Call Outcome :=
  if feeds.isEmpty then .returned { fault := some .nothingToFollow, network := c.hub.network }
  else
    match c.follow drawn feeds with
    | (_, .waiting) => .waiting
    | (c, .returned (some e)) => .returned { fault := some (.call e), network := c.hub.network }
    | (c, .returned none) =>
      match interruptAfter.bind fun n => c.awaitMessages n (c.hub.network.script.size + 1) with
      | none => .waiting
      | some (c, ms) =>
        .returned { printed := ms.map (·.raw), network := c.shutdown.hub.network }

/-- Runs a command for a client. -/
def run (c : Client) (drawn : List SubscriptionId) (interruptAfter : Option Nat) :
    Command → Call Outcome
  | .publish topic message options =>
    let (c, result) := c.publish topic (Bytes.ofString message) (topicOptions c.settings options)
    result.map fun
      | .ok m => { printed := [Text.trimEnd m.raw], network := c.hub.network }
      | .error e => { fault := some (.call e), network := c.hub.network }
  | .poll topic options =>
    let (c, result) := c.poll topic (topicOptions c.settings options)
    result.map fun p =>
      { printed := p.messages.map (·.raw), fault := p.error.map .call, network := c.hub.network }
  | .subscribe topics options =>
    runSubscribe c drawn interruptAfter (followed c.settings topics options)

/-- Runs what the arguments asked for. `look` reads a file, `vars` is the environment, and `drawn`
are the ids that are drawn for subscriptions. -/
def Invocation.run (look : String → Settings.Target) (vars : Settings.Variables)
    (network : Network) (drawn : List SubscriptionId) (interruptAfter : Option Nat)
    (i : Invocation) : Call Outcome :=
  match Settings.load look i.settingsFile vars with
  | .error f => .returned { fault := some (.settings f), network }
  | .ok s => i.command.run (Client.new s network) drawn interruptAfter

end Command

end TopicFeed
