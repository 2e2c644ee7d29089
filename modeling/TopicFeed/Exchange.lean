import TopicFeed.Feed

/-!
# Single exchanges

Publishing one message and polling a topic once. Both send one request and read its answer to the
end, and neither tries again. A server that keeps its answer open and says nothing more makes the
caller wait for ever; that is an outcome of its own here.
-/

namespace TopicFeed

/-- The outcome of a call: it returns, or it waits for something that never comes. -/
inductive Call (α : Type) where
  | returned (result : α)
  | waiting
  deriving DecidableEq, Repr

/-- The outcome of a call with a function applied to what it returns. -/
def Call.map {α β : Type} (f : α → β) : Call α → Call β
  | returned a => returned (f a)
  | waiting => waiting

/-- What a poll returns: the messages that arrived, and the error that ended it, if one did. -/
structure Polled where
  messages : List Message := []
  error : Option ClientError := none
  deriving DecidableEq, Repr

namespace Network

/-- Publishes to a topic. The answer is read up to the limit and decoded as one event; the answer
of a failure is its error text. -/
def publish (net : Network) (topicUrl : String) (body : Bytes) (options : List RequestOption) :
    Network × Call (Except ClientError Message) :=
  match net.request .post topicUrl options body with
  | (net, .error e) => (net, .returned (.error e))
  | (net, .ok (status, answer)) =>
    match answer.capped maxAnswer with
    | .waits => (net, .waiting)
    | .broken => (net, .returned (.error (.transport .brokenBody)))
    | .read bytes =>
      let result :=
        if isSuccess status then (Message.decode (Utf8.lenient bytes) topicUrl "").mapError .decode
        else .error (refusal status bytes)
      (net.leave answer.ending, .returned result)

/-- Polls a topic: asks for what the server holds, and reads until the server ends the feed. -/
def poll (net : Network) (topicUrl : String) (options : List RequestOption) :
    Network × Call Polled :=
  match net.openFeed topicUrl (options ++ [.poll]) with
  | (net, .failed e) => (net, .returned { error := some e })
  | (net, .waits) => (net, .waiting)
  | (net, .feed f) =>
    match f.collect topicUrl "" with
    | (messages, .ended) => (net, .returned { messages })
    | (messages, .failed e) => (net.leave f.ending, .returned { messages, error := some e })
    | (_, .waits) => (net, .waiting)

end Network

end TopicFeed
