import TopicFeed.Network.Body
import TopicFeed.Request
import TopicFeed.Request.Option

/-!
# The network

Everything that lies beyond the client: which hosts answer, and what. The answers are written
down beforehand, by the number of the request or by its path; so a run of the client is a function
of them. The network keeps the requests that arrived, and counts the connections that servers keep
open and those of them that the client gave up.
-/

namespace TopicFeed

namespace Network

/-- What a server does with a request: it closes the connection, or it answers. An answer has a
status and a body and no headers, so none of them leads on to another address. -/
inductive Reply where
  | dropped
  | answer (status : Nat) (body : Body)
  deriving DecidableEq, Repr

/-- The answers by the number of the request, or by its path and its number on that path. -/
inductive Script where
  | inOrder (replies : List Reply)
  | byPath (replies : List (String × List Reply))
  deriving DecidableEq, Repr

/-- The reply to a request for a path, after requests for the given ones. -/
def Script.reply? (script : Script) (earlier : List String) (path : String) : Option Reply :=
  match script with
  | .inOrder replies => replies[earlier.length]?
  | .byPath replies =>
    (replies.find? (·.1 == path)).bind fun entry => entry.2[earlier.count path]?

/-- The number of replies that a script holds. -/
def Script.size : Script → Nat
  | .inOrder replies => replies.length
  | .byPath replies => (replies.flatMap (·.2)).length

end Network

/-- The network: the hosts that answer, their replies and the one to everything else; and what has
happened so far. -/
structure Network where
  isPresent : String → Bool
  script : Network.Script
  beyond : Network.Reply
  requests : List Request := []
  held : Nat := 0
  hangups : Nat := 0

namespace Network

/-- The paths of the requests that arrived. -/
def paths (net : Network) : List String := net.requests.map fun r => r.url.pathText

/-- An answer of such a status has no body. -/
def isBodiless (status : Nat) : Bool := status == 204 || status == 304

/-- Sends a request: whether it arrived, and the status and body of its answer. -/
def send (net : Network) (r : Request) : Network × Except TransportFault (Nat × Body) :=
  let unanswered := Except.error (TransportFault.unanswered r.url.toText)
  if !net.isPresent ((r.url.host.map Url.Host.toText).getD "") then (net, unanswered)
  else
    let reply := (net.script.reply? net.paths r.url.pathText).getD net.beyond
    let net := { net with requests := net.requests ++ [r] }
    match reply with
    | .dropped => (net, unanswered)
    | .answer status body =>
      let body := if isBodiless status then {} else body
      ({ net with held := net.held + if body.ending = .silent then 1 else 0 }, .ok (status, body))

/-- The client gives up a connection. It matters only where the server keeps it open. -/
def leave (net : Network) (ending : Ending) : Network :=
  { net with hangups := net.hangups + if ending = .silent then 1 else 0 }

/-- Sends what a specification asks for. -/
def request (net : Network) (method : Request.Method) (address : String)
    (options : List RequestOption) (body : Bytes) :
    Network × Except ClientError (Nat × Body) :=
  match Request.Spec.ofOptions options with
  | .error f => (net, .error (.invalidOption f))
  | .ok spec =>
    match Request.ofSpec method address spec body with
    | .error f => (net, .error (.transport f))
    | .ok r =>
      let (net, answer) := net.send r
      (net, answer.mapError .transport)

end Network

end TopicFeed
