import TopicFeed.Json.Record

/-!
# Events

What a server tells about a topic, one event a line: notifications, and control events such as
`open` and `keepalive`. An event is decoded here and nowhere else, whether it answers a publish or
stands on a line of a stream. Decoding adds what only the client knows: the topic URL, the
subscription, and the exact line.
-/

namespace TopicFeed

/-- A file that comes with a notification. The uploader is the server's own knowledge and is never
taken from the wire. -/
structure Attachment where
  name : String := ""
  mimeType : String := ""
  size : Int64 := 0
  expires : Int64 := 0
  url : String := ""
  owner : String := ""
  deriving DecidableEq, Repr, Inhabited

/-- An event of a topic. The last three fields are the client's own: where the event was read,
which subscription received it (none for publish and poll), and the line it was decoded from. -/
structure Message where
  id : String := ""
  event : String := ""
  time : Int64 := 0
  expires : Int64 := 0
  topic : String := ""
  message : String := ""
  title : String := ""
  priority : UInt8 := 0
  tags : List String := []
  click : String := ""
  icon : String := ""
  attachment : Option Attachment := none
  topicUrl : String := ""
  subscriptionId : String := ""
  raw : String := ""
  deriving DecidableEq, Repr, Inhabited

/-- The event is a notification; everything else only controls the stream. -/
def Message.isNotification (m : Message) : Bool := m.event == "message"

open Json

/-- The fields of an attachment on the wire, in their order. -/
def Attachment.fields : List (Json.Field Attachment) := [
  .of "name" .text fun v a => { a with name := v },
  .of "type" .text fun v a => { a with mimeType := v },
  .of "size" .int64 fun v a => { a with size := v },
  .of "expires" .int64 fun v a => { a with expires := v },
  .of "url" .text fun v a => { a with url := v }]

/-- The fields of an event on the wire, in their order. -/
def Message.fields : List (Json.Field Message) := [
  .of "id" .text fun v m => { m with id := v },
  .of "event" .text fun v m => { m with event := v },
  .of "time" .int64 fun v m => { m with time := v },
  .of "expires" .int64 fun v m => { m with expires := v },
  .of "topic" .text fun v m => { m with topic := v },
  .of "message" .text fun v m => { m with message := v },
  .of "title" .text fun v m => { m with title := v },
  .of "priority" .octet fun v m => { m with priority := v },
  .of "tags" (.list .text) fun v m => { m with tags := v },
  .of "click" .text fun v m => { m with click := v },
  .of "icon" .text fun v m => { m with icon := v },
  .of "attachment" (.nullable (.record "Attachment" Attachment.fields {}))
    fun v m => { m with attachment := v }]

/-- Reads an event. -/
def Message.reader : Reader Message := .record "Message" Message.fields {}

/-- Decodes one line and stamps the event with its topic URL, its subscription and the line. -/
def Message.decode (line topicUrl subscriptionId : String) : Except LineFault Message :=
  (readLine Message.reader (Bytes.ofString line)).map fun m =>
    { m with topicUrl := topicUrl, subscriptionId := subscriptionId, raw := line }

end TopicFeed
