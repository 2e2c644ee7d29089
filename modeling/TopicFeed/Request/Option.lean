import TopicFeed.Request.Spec

/-!
# Options

An option is a small checked change of a request specification. Options are applied in the order
given, and the first one that is refused stops the application.
-/

namespace TopicFeed

open Request

/-- A change of a request specification. -/
inductive RequestOption where
  | header (name value : String)
  | removeHeader (name : String)
  | query (name value : String)
  | priority (level : String)
  | since (start : String)
  | auth (credentials : Option Credentials)
  deriving DecidableEq, Repr

namespace RequestOption

/-- The levels of priority, by number and by name. -/
def priorityLevels : List String :=
  ["1", "2", "3", "4", "5", "min", "low", "default", "high", "max", "urgent"]

/-- The text names a level of priority, in any letter case. -/
def isPriority (s : String) : Bool :=
  priorityLevels.contains (String.ofList (s.toList.map Ascii.lower))

/-- The character is one of the ten digits. -/
def isDigit (c : Char) : Bool := '0' ≤ c && c ≤ '9'

/-- One or more digits. -/
def isDigits (cs : List Char) : Bool := !cs.isEmpty && cs.all isDigit

/-- Digits and a unit of time: seconds, minutes, hours or days. -/
def isDuration (cs : List Char) : Bool :=
  match cs.getLast? with
  | some unit => "smhd".toList.contains unit && isDigits cs.dropLast
  | none => false

/-- The form of the identifiers that servers give to messages. -/
def isMessageId (cs : List Char) : Bool := cs.length == 12 && cs.all Ascii.isAlphanumeric

/-- The text says from where on messages are wanted: all of them, the latest one, those since a
time, those of a duration, or those behind a message. -/
def isSince (s : String) : Bool :=
  s == "all" || s == "latest" || isDigits s.toList || isDuration s.toList || isMessageId s.toList

end RequestOption

namespace Request.Spec

/-- Applies one option: the specification that it leaves, and the fault if it is refused. -/
def apply (spec : Spec) : RequestOption → Spec × Option OptionFault
  | .header name value => spec.setHeader name value
  | .removeHeader name => (spec.removeHeader name, none)
  | .query name value => (spec.setQuery name value, none)
  | .priority level =>
    if RequestOption.isPriority level then spec.setHeader "X-Priority" level
    else (spec, some (.priority level))
  | .since start =>
    if RequestOption.isSince start then (spec.setQuery "since" start, none)
    else (spec, some (.since start))
  | .auth (some credentials) => (spec.setCredentials credentials, none)
  | .auth none => (spec.removeHeader Header.authorization, none)

/-- Applies options in order up to the first that is refused: the specification reached, and the
fault that stopped it. -/
def applyAll (spec : Spec) : List RequestOption → Spec × Option OptionFault
  | [] => (spec, none)
  | option :: rest =>
    match spec.apply option with
    | (next, none) => next.applyAll rest
    | (reached, some fault) => (reached, some fault)

/-- The specification that options make of a fresh one. -/
def ofOptions (options : List RequestOption) : Except OptionFault Spec :=
  match applyAll {} options with
  | (spec, none) => .ok spec
  | (_, some fault) => .error fault

end Request.Spec

namespace RequestOption

/-! ### Options by name -/

/-- The message as a header, for a request whose body is a file. -/
def message (text : String) : RequestOption := .header "X-Message" text

def title (text : String) : RequestOption := .header "X-Title" text

/-- Tags, with commas between them. -/
def tagList (tags : String) : RequestOption := .header "X-Tags" tags

def tags (tags : List String) : RequestOption := tagList (",".intercalate tags)

/-- A later delivery: a duration, a time of day, or a time in seconds. -/
def delay (text : String) : RequestOption := .header "X-Delay" text

def click (url : String) : RequestOption := .header "X-Click" url

def icon (url : String) : RequestOption := .header "X-Icon" url

def actions (text : String) : RequestOption := .header "X-Actions" text

def attach (url : String) : RequestOption := .header "X-Attach" url

def filename (name : String) : RequestOption := .header "X-Filename" name

def email (address : String) : RequestOption := .header "X-Email" address

def markdown : RequestOption := .header "X-Markdown" "yes"

/-- The message is not stored: only those who listen now will see it. -/
def noCache : RequestOption := .header "X-Cache" "no"

def noFirebase : RequestOption := .header "X-Firebase" "no"

def basicAuth (user password : String) : RequestOption := .auth (some (.basic user password))

def bearerAuth (token : String) : RequestOption := .auth (some (.token token))

def credentials (c : Credentials) : RequestOption := .auth (some c)

/-- Forgets the credentials of earlier options. -/
def emptyAuth : RequestOption := .auth none

def sinceAll : RequestOption := .since "all"

/-- Messages since a time in seconds. -/
def sinceTime (seconds : Int64) : RequestOption := .since (toString seconds.toInt)

/-- The server ends the stream after the messages it holds. -/
def poll : RequestOption := .query "poll" "1"

/-- Messages that wait for a later delivery are wanted, too. -/
def scheduled : RequestOption := .query "scheduled" "1"

/-- A condition on the messages, checked by the server. -/
def filter (name value : String) : RequestOption := .query name value

end RequestOption

end TopicFeed
