import TopicFeed.Request.Option
import TopicFeed.Settings.Conditions

/-!
# Settings

What a client is told once and for all: the host of short topic names, credentials, how long to
pause between attempts, how many messages to keep, and the topics to follow. The credentials of a
topic go before those of the settings, and at each of these levels a token goes before user and
password; what one level lacks is never filled up from the other.
-/

namespace TopicFeed

open Request

namespace Settings

/-- A topic to follow. -/
structure Entry where
  topic : String := ""
  user : Option String := none
  password : Option String := none
  token : Option String := none
  command : String := ""
  conditions : Conditions := .empty
  deriving DecidableEq

/-- The shortest pause between two attempts, in milliseconds. -/
abbrev minDelay : Nat := 100

end Settings

/-- The settings of a client. -/
structure Settings where
  defaultHost : String := "https://ntfy.sh"
  defaultUser : String := ""
  defaultPassword : Option String := none
  defaultToken : String := ""
  defaultCommand : String := ""
  subscriptions : List Settings.Entry := []
  /-- The pause between two attempts, in milliseconds, as it is asked for. -/
  reconnectDelay : Nat := 10000
  queueCapacity : Nat := 50
  deriving DecidableEq

namespace Settings

/-- The pause between two attempts, in milliseconds. -/
def delay (s : Settings) : Nat := max s.reconnectDelay minDelay

/-- The credentials for topics that bring none of their own. An empty token is none, and a user
without a name has no password. -/
def defaultCredentials (s : Settings) : Option Credentials :=
  if s.defaultToken ≠ "" then some (.token s.defaultToken)
  else if s.defaultUser ≠ "" then s.defaultPassword.map (.basic s.defaultUser)
  else none

/-- The credentials that an entry brings. -/
def Entry.credentials (e : Entry) : Option Credentials :=
  match e.token.filter (· ≠ ""), e.user, e.password with
  | some token, _, _ => some (.token token)
  | none, some user, some password => some (.basic user password)
  | _, _, _ => none

/-- The credentials for an entry. -/
def credentialsFor (s : Settings) (e : Entry) : Option Credentials :=
  e.credentials.or s.defaultCredentials

/-- The options for an entry: its credentials, then its conditions. -/
def optionsFor (s : Settings) (e : Entry) : List RequestOption :=
  ((s.credentialsFor e).map RequestOption.credentials).toList ++
    e.conditions.pairs.map fun p => .filter p.1 p.2

end Settings

end TopicFeed
