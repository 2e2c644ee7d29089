import TopicFeed.Decimal.Word
import TopicFeed.Settings.Toml
import TopicFeed.Settings.Yaml

/-!
# Where settings come from

From a file and from variables of the environment. The file is the one that is asked for, or else
the one that a variable names; without either all settings have their defaults. The other variables
go before what the file says, and are looked at only once it has been read.
-/

namespace TopicFeed.Settings

/-- What a path leads to. -/
inductive Target where
  | file (contents : Bytes)
  | directory
  | missing
  deriving DecidableEq, Repr

/-- Why a file is not read. -/
inductive FileFault where
  | missing
  | directory
  | notText
  deriving DecidableEq, Repr

/-- The wording of a fault of a file. -/
def FileFault.message : FileFault → String
  | .missing => "No such file or directory (os error 2)"
  | .directory => "Is a directory (os error 21)"
  | .notText => "stream did not contain valid UTF-8"

/-- Why there are no settings. -/
inductive Fault where
  | file (fault : FileFault)
  | yaml
  | toml
  | reconnectDelay (fault : Decimal.WordFault)
  deriving DecidableEq, Repr

/-- The wording of a fault. -/
def Fault.message : Fault → String
  | .file f => "I/O error: " ++ f.message
  | .yaml => "YAML parse error: "
  | .toml => "TOML parse error: "
  | .reconnectDelay f => "config parse error: NTFY_RECONNECT_DELAY_MS: " ++ f.message

/-! ### The file -/

/-- The text at the end of a path that a target holds. -/
def Target.text : Target → Except FileFault String
  | .missing => .error .missing
  | .directory => .error .directory
  | .file contents =>
    match Utf8.decode? contents with
    | some s => .ok s
    | none => .error .notText

/-- What follows the last dot in the name at the end of a path. A name that only begins with a dot
has nothing of the kind. -/
def extension? (path : List Char) : Option (List Char) :=
  let name := path.reverse.takeWhile (· ≠ '/')
  match name.dropWhile (· ≠ '.') with
  | [] | [_] => none
  | _ => some (name.takeWhile (· ≠ '.')).reverse

/-- The path is that of a file in YAML. All others are in TOML. -/
def isYaml (path : String) : Bool :=
  match extension? path.toList with
  | some extension =>
    ["yml".toList, "yaml".toList].contains (extension.map Ascii.lower)
  | none => false

/-- The settings in a file. -/
def ofFile (path : String) (target : Target) : Except Fault Settings :=
  match target.text with
  | .error f => .error (.file f)
  | .ok s =>
    if isYaml path then (ofYaml? s).elim (.error .yaml) .ok else (ofToml? s).elim (.error .toml) .ok

/-! ### The environment -/

/-- The variables of the environment that matter, as far as they are set. -/
structure Variables where
  file : Option String := none
  host : Option String := none
  user : Option String := none
  password : Option String := none
  token : Option String := none
  reconnectDelay : Option String := none
  deriving DecidableEq, Repr

/-- Reads the variables from an environment. One whose value is no text counts as not set. -/
def Variables.read {m : Type → Type} [Monad m] (value? : String → m (Option Bytes)) :
    m Variables := do
  let text? (name : String) : m (Option String) := do return (← value? name).bind Utf8.decode?
  return {
    file := ← text? "NTFY_CONFIG"
    host := ← text? "NTFY_DEFAULT_HOST"
    user := ← text? "NTFY_DEFAULT_USER"
    password := ← text? "NTFY_DEFAULT_PASSWORD"
    token := ← text? "NTFY_DEFAULT_TOKEN"
    reconnectDelay := ← text? "NTFY_RECONNECT_DELAY_MS" }

/-- The settings with what the variables say instead. -/
def Variables.over (v : Variables) (s : Settings) : Except Fault Settings :=
  let s := { s with
    defaultHost := v.host.getD s.defaultHost
    defaultUser := v.user.getD s.defaultUser
    defaultPassword := v.password.or s.defaultPassword
    defaultToken := v.token.getD s.defaultToken }
  match v.reconnectDelay with
  | none => .ok s
  | some t =>
    match Decimal.word t with
    | .ok n => .ok { s with reconnectDelay := n }
    | .error f => .error (.reconnectDelay f)

/-- The path of the file that is read. -/
def Variables.path? (v : Variables) (given : Option String) : Option String := given.or v.file

/-- The settings, from the given file or else the one that is named by a variable. -/
def load (look : String → Target) (given : Option String) (v : Variables) :
    Except Fault Settings :=
  match v.path? given with
  | none => v.over {}
  | some path =>
    match ofFile path (look path) with
    | .ok s => v.over s
    | .error f => .error f

end TopicFeed.Settings
