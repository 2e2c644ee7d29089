import TopicFeed.Command.Arguments
import TopicFeed.Request.Option

/-!
# Commands

What the program can be asked to do: publish one message, print what a topic holds, or follow
topics. The switches of a command become options in the order of its table, whatever the order in
which they are given.
-/

namespace TopicFeed

/-- A command, with the options that its switches ask for. -/
inductive Command where
  | publish (topic message : String) (options : List RequestOption)
  | poll (topic : String) (options : List RequestOption)
  | subscribe (topics : List String) (options : List RequestOption)
  deriving DecidableEq

namespace Command

/-! ### Tables -/

/-- The commands by their names. -/
inductive Verb where
  | publish
  | poll
  | subscribe
  deriving DecidableEq, Repr

/-- The names of the commands. -/
def Verb.table : List (String × Verb) :=
  [("publish", .publish), ("poll", .poll), ("subscribe", .subscribe)]

/-- The switches of a command, each with the option that it asks for. -/
def Verb.options : Verb → List (Switch × (String → RequestOption))
  | .publish => [
      ({ name := "title", letter := some 't' }, .title),
      ({ name := "priority", letter := some 'p' }, .priority),
      ({ name := "tags" }, .tagList),
      ({ name := "delay" }, .delay),
      ({ name := "click" }, .click),
      ({ name := "icon" }, .icon),
      ({ name := "markdown", effect := .flag }, fun _ => .markdown),
      ({ name := "no-cache", effect := .flag }, fun _ => .noCache),
      ({ name := "no-firebase", effect := .flag }, fun _ => .noFirebase)]
  | .poll => [
      ({ name := "since" }, .since),
      ({ name := "scheduled", effect := .flag }, fun _ => .scheduled)]
  | .subscribe => [({ name := "since" }, .since)]

/-- The number of operands that a command takes at most. -/
def Verb.operands : Verb → Option Nat
  | .publish => some 2
  | .poll => some 1
  | .subscribe => none

/-- The switch that names the settings file. -/
def settingsSwitch : Switch := { name := "config", letter := some 'c' }

/-- The switches that stand before a command or behind it. The level of the log does not matter for
what a command does. -/
def globalSwitches : List Switch := [
  settingsSwitch,
  { name := "log-level" },
  { name := "help", letter := some 'h', effect := .stop .help }]

/-- The switch that asks for the version. -/
def versionSwitch : Switch := { name := "version", letter := some 'V', effect := .stop .version }

/-- What may stand before the command. -/
def outerGrammar : Grammar where
  switches := globalSwitches ++ [versionSwitch]

/-- What may stand behind the command. -/
def Verb.grammar (v : Verb) : Grammar where
  switches := v.options.map (·.1) ++ globalSwitches
  operands := v.operands

/-! ### Reading -/

/-- The options that the switches of a command ask for. -/
def Verb.optionsOf (v : Verb) (given : Given) : List RequestOption :=
  v.options.filterMap fun (switch, option) => (given.value? switch.name).map option

/-- The command that has been given, if no operand is missing. -/
def Verb.command? (v : Verb) (given : Given) : Option Command :=
  let options := v.optionsOf given
  match v, given.operands with
  | .publish, [topic, message] => some (.publish topic message options)
  | .poll, [topic] => some (.poll topic options)
  | .subscribe, topics => some (.subscribe topics options)
  | _, _ => none

/-- What a run is asked for: a command, and the file of its settings. -/
structure Invocation where
  settingsFile : Option String
  command : Command
  deriving DecidableEq

/-- The arguments after the command that asks for help: at most one name of a command. -/
def isHelpTopic (args : List String) : Bool :=
  match args with
  | [] => true
  | [name] => name == "help" || (Verb.table.lookup name).isSome
  | _ => false

/-- What the arguments of the program ask for. A settings file that is named behind the command
goes before one that is named before it. -/
def Invocation.ofArgs (args : List String) : Except Stop Invocation := do
  let (outer, rest) ← outerGrammar.readSwitches {} args
  match rest with
  | [] => .error .misuse
  | name :: rest =>
    if outer.literal then .error .misuse
    else if name == "help" then .error (if isHelpTopic rest then .help else .misuse)
    else
      match Verb.table.lookup name with
      | none => .error .misuse
      | some verb =>
        let inner ← verb.grammar.read rest
        let file? (g : Given) := g.value? settingsSwitch.name
        match verb.command? inner with
        | none => .error .misuse
        | some command => .ok { settingsFile := (file? inner).or (file? outer), command }

/-! ### Texts -/

/-- How the program is called. -/
def usage : List String := [
  "Usage: ntfy-cli [-c FILE] [--log-level LEVEL] COMMAND",
  "",
  "Commands:",
  "  publish TOPIC MESSAGE [-t TITLE] [-p PRIORITY] [--tags TAGS] [--delay DELAY] [--click URL]",
  "          [--icon URL] [--markdown] [--no-cache] [--no-firebase]",
  "  poll TOPIC [--since START] [--scheduled]",
  "  subscribe [TOPIC...] [--since START]"]

/-- The lines that are shown instead of a run. -/
def Stop.shown : Stop → List String
  | .misuse => []
  | .help => usage
  | .version => ["ntfy-cli 0.1.0"]

/-- The exit code if there is nothing to do. -/
def Stop.exitCode : Stop → UInt32
  | .misuse => 2
  | _ => 0

end Command

end TopicFeed
