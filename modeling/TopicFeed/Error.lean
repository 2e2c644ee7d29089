import TopicFeed.Json.Fault

/-!
# Errors

What can go wrong between a caller and a server, by cause. The wording of each is one function.
Errors of validation are found before anything is sent and are never retried.
-/

namespace TopicFeed

/-- Why an option is refused. A caller with options of its own may give any other reason. -/
inductive OptionFault where
  | priority (given : String)
  | since (given : String)
  | headerName (given : String)
  | headerValue (name given : String)
  | other (reason : String)
  deriving DecidableEq, Repr

/-- The wording of a refused option. -/
def OptionFault.message : OptionFault → String
  | .priority p => "invalid priority: " ++ p
  | .since s => "invalid since: " ++ s
  | .headerName n => "invalid header name: " ++ n
  | .headerValue n v => "invalid value for header " ++ n ++ ": " ++ v
  | .other reason => reason

/-- Why a request could not be made or its answer not be read. -/
inductive TransportFault where
  /-- The request could not be built: a URL that does not parse, or credentials that are no header
  value. -/
  | unbuildable
  /-- The scheme of the URL is not one that requests can be sent with. -/
  | scheme (url : String)
  /-- The request was not answered. -/
  | unanswered (url : String)
  /-- The connection broke inside the body of the answer. -/
  | brokenBody
  deriving DecidableEq, Repr

/-- The wording of a transport fault. -/
def TransportFault.message : TransportFault → String
  | .unbuildable => "builder error"
  | .scheme url => "builder error for url (" ++ url ++ ")"
  | .unanswered url => "error sending request for url (" ++ url ++ ")"
  | .brokenBody => "error decoding response body"

/-- Why a stream could not be read on. -/
inductive StreamFault where
  | text (fault : Utf8.Fault)
  | body (fault : TransportFault)
  | other (reason : String)
  deriving DecidableEq, Repr

/-- The wording of a stream fault. -/
def StreamFault.message : StreamFault → String
  | .text f => f.message
  | .body f => f.message
  | .other reason => reason

/-- What a call can fail with. -/
inductive ClientError where
  | invalidTopic (topic : String)
  | invalidOption (fault : OptionFault)
  | transport (fault : TransportFault)
  /-- A status that is no success, with the trimmed text of the body. -/
  | server (status : Nat) (message : String)
  | decode (fault : Json.LineFault)
  | stream (fault : StreamFault)
  | queueClosed
  | canceled
  | noRuntime
  deriving DecidableEq, Repr

namespace ClientError

/-- The wording of an error. A server's refusal is shown by its body alone. -/
def message : ClientError → String
  | .invalidTopic t => "invalid topic name: " ++ t
  | .invalidOption f => "invalid option: " ++ f.message
  | .transport f => f.message
  | .server _ m => m
  | .decode f => "failed to decode message: " ++ f.message
  | .stream f => "stream read failed: " ++ f.message
  | .queueClosed => "message queue is closed"
  | .canceled => "subscription canceled"
  | .noRuntime => "subscribe must be called from within a Tokio runtime"

/-- The error was found before anything was sent, and trying again will not help. -/
def isValidation : ClientError → Bool
  | .invalidTopic _ | .invalidOption _ => true
  | _ => false

/-- The error stands for another one, which it quotes in its wording. -/
def hasCause : ClientError → Bool
  | .decode _ | .stream _ => true
  | _ => false

end ClientError

end TopicFeed
