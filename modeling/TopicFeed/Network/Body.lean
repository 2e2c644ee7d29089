import TopicFeed.Error
import TopicFeed.Text.Blank

/-!
# Bodies of answers

A body arrives in chunks, and then ends in one of three ways. Where one chunk ends and the next
begins means nothing. An answer that is no stream is read up to a limit, so a server cannot make
the client hold more than that; what lies beyond is never looked at.
-/

namespace TopicFeed.Network

/-- How a body ends: the server is done, the connection breaks, or it stays open and silent. -/
inductive Ending where
  | closed
  | broken
  | silent
  deriving DecidableEq, Repr

/-- The body of an answer. -/
structure Body where
  chunks : List Bytes := []
  ending : Ending := .closed
  deriving DecidableEq, Repr

/-- All bytes that arrive. -/
def Body.bytes (b : Body) : Bytes := b.chunks.flatten

/-- What comes of reading a body up to a limit. -/
inductive Capped where
  | read (bytes : Bytes)
  | broken
  | waits
  deriving DecidableEq, Repr

/-- Reads on until the limit is reached or the body ends. -/
def capped (limit : Nat) (ending : Ending) (done : Bytes) : List Bytes → Capped
  | [] =>
    if limit ≤ done.length then .read done
    else match ending with
      | .closed => .read done
      | .broken => .broken
      | .silent => .waits
  | chunk :: chunks =>
    if limit ≤ done.length then .read done
    else capped limit ending (done ++ chunk.take (limit - done.length)) chunks

/-- Reads a body up to a limit. -/
def Body.capped (b : Body) (limit : Nat) : Capped := Network.capped limit b.ending [] b.chunks

/-- The limit for answers that are no stream. -/
abbrev maxAnswer : Nat := 4096

/-- The status of a success. -/
def isSuccess (status : Nat) : Bool := 200 ≤ status && status < 300

/-- The error of any other status, which quotes the body. -/
def refusal (status : Nat) (body : Bytes) : ClientError :=
  .server status (Text.trim (Utf8.lenient body))

end TopicFeed.Network
