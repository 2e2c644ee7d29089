import TopicFeed.Event
import TopicFeed.Network

/-!
# Feeds

The stream of a topic: a body that is read line by line while it arrives. A line ends with a line
feed, which is taken off together with one carriage return before it; the last line needs no end,
but counts only if the body ends as it should. Every line is one event, and a line that is none
ends the feed: nothing behind it is read.
-/

namespace TopicFeed

open Network

/-- A feed: the bytes of the line in progress, the latest first; the rest of the chunk at hand;
the chunks behind it; and how they end. -/
structure Feed where
  part : Bytes := []
  rest : Bytes := []
  chunks : List Bytes := []
  ending : Ending
  deriving DecidableEq, Repr

namespace Feed

open Ascii

/-- The feed that a body holds. -/
def ofBody (b : Body) : Feed := { chunks := b.chunks, ending := b.ending }

/-- A measure of all bytes that are still to come. -/
def size (f : Feed) : Nat :=
  f.part.length + f.rest.length + f.chunks.flatten.length + f.chunks.length

/-- Reads to the next line feed: either all bytes belong to the line in progress, or it ends. -/
def scan (part : Bytes) : Bytes → Bytes × Option Bytes
  | [] => (part, none)
  | b :: r => if b = lineFeed then (part, some r) else scan (b :: part) r

/-- A line from its bytes in reverse, without the carriage return at its end. -/
def lineOf : Bytes → Bytes
  | [] => []
  | b :: r => if b = carriageReturn then r.reverse else (b :: r).reverse

/-- What the next bytes of a feed are: a line and the feed behind it, or why there is none. -/
inductive Next where
  | line (bytes : Bytes) (feed : Feed)
  | ended
  | broken
  | waits
  deriving DecidableEq, Repr

/-- The next line, chunk after chunk. -/
def nextFrom (ending : Ending) (part rest : Bytes) : List Bytes → Next
  | [] =>
    match scan part rest with
    | (part, some rest) => .line (lineOf part) { rest, ending }
    | (part, none) =>
      match ending with
      | .closed => if part.isEmpty then .ended else .line part.reverse { ending }
      | .broken => .broken
      | .silent => .waits
  | chunk :: chunks =>
    match scan part rest with
    | (part, some rest) => .line (lineOf part) { rest, chunks := chunk :: chunks, ending }
    | (part, none) => nextFrom ending part chunk chunks

/-- The next line. -/
def next (f : Feed) : Next := nextFrom f.ending f.part f.rest f.chunks

/-- What the next line of a feed brings: a notification, another event, or an end. -/
inductive Arrival where
  | notification (message : Message) (feed : Feed)
  | control (feed : Feed)
  | ended
  | failed (error : ClientError)
  | waits
  deriving DecidableEq, Repr

/-- The event that a line tells. -/
def event (topicUrl subscriptionId : String) (line : Bytes) : Except ClientError Message :=
  match Utf8.check? line with
  | .error f => .error (.stream (.text f))
  | .ok text => (Message.decode text topicUrl subscriptionId).mapError .decode

/-- The next event. -/
def arrival (topicUrl subscriptionId : String) (f : Feed) : Arrival :=
  match f.next with
  | .line bytes rest =>
    match event topicUrl subscriptionId bytes with
    | .error e => .failed e
    | .ok m => if m.isNotification then .notification m rest else .control rest
  | .ended => .ended
  | .broken => .failed (.stream (.body .brokenBody))
  | .waits => .waits

/-! ### A line takes bytes -/

theorem length_scan {part rest line : Bytes} {after? : Option Bytes}
    (h : scan part rest = (line, after?)) :
    match after? with
    | none => line.length = part.length + rest.length
    | some after => line.length + after.length + 1 = part.length + rest.length := by
  induction rest generalizing part with
  | nil =>
    simp only [scan, Prod.mk.injEq] at h
    obtain ⟨rfl, rfl⟩ := h
    simp
  | cons b r ih =>
    simp only [scan] at h
    split at h
    · simp only [Prod.mk.injEq] at h
      obtain ⟨rfl, rfl⟩ := h
      simp only [List.length_cons]
      omega
    · have := ih h
      split at this <;> simp only [List.length_cons] at this ⊢ <;> omega

theorem size_lt_of_nextFrom {ending : Ending} {part rest line : Bytes} {chunks : List Bytes}
    {g : Feed} (h : nextFrom ending part rest chunks = .line line g) :
    g.size < (⟨part, rest, chunks, ending⟩ : Feed).size := by
  induction chunks generalizing part rest with
  | nil =>
    simp only [nextFrom] at h
    split at h
    · next hs =>
      have := length_scan hs
      simp only [Next.line.injEq] at h
      simp only [← h.2, size, List.length_nil]
      omega
    · next p hs =>
      have hlen := length_scan hs
      split at h
      · split at h
        · simp at h
        · next hne =>
          simp only [Next.line.injEq] at h
          have : p.length ≠ 0 := by
            simpa [List.isEmpty_iff] using hne
          simp only [← h.2, size, List.length_nil]
          omega
      · simp at h
      · simp at h
  | cons chunk chunks ih =>
    simp only [nextFrom] at h
    split at h
    · next hs =>
      have := length_scan hs
      simp only [Next.line.injEq] at h
      simp only [← h.2, size, List.length_nil]
      omega
    · next hs =>
      have hlen := length_scan hs
      have := ih h
      simp only [size, List.flatten_cons, List.length_append, List.length_cons] at this ⊢
      omega

theorem size_lt_of_next {f g : Feed} {line : Bytes} (h : f.next = .line line g) :
    g.size < f.size :=
  size_lt_of_nextFrom h

theorem size_lt_of_notification {t s : String} {f g : Feed} {m : Message}
    (h : f.arrival t s = .notification m g) : g.size < f.size := by
  unfold arrival at h
  split at h
  · next hn =>
    have := size_lt_of_next hn
    split at h
    · simp at h
    · split at h
      · simp only [Arrival.notification.injEq] at h
        exact h.2 ▸ this
      · simp at h
  all_goals simp at h

theorem size_lt_of_control {t s : String} {f g : Feed} (h : f.arrival t s = .control g) :
    g.size < f.size := by
  unfold arrival at h
  split at h
  · next hn =>
    have := size_lt_of_next hn
    split at h
    · simp at h
    · split at h
      · simp at h
      · simp only [Arrival.control.injEq] at h
        exact h ▸ this
  all_goals simp at h

/-! ### A feed as a whole -/

/-- How a feed comes to its end. -/
inductive Close where
  | ended
  | failed (error : ClientError)
  | waits
  deriving DecidableEq, Repr

/-- All notifications of a feed, and how it ends. -/
def collect (topicUrl subscriptionId : String) (f : Feed) : List Message × Close :=
  match h : f.arrival topicUrl subscriptionId with
  | .notification m g =>
    have := size_lt_of_notification h
    let (ms, close) := collect topicUrl subscriptionId g
    (m :: ms, close)
  | .control g =>
    have := size_lt_of_control h
    collect topicUrl subscriptionId g
  | .ended => ([], .ended)
  | .failed e => ([], .failed e)
  | .waits => ([], .waits)
termination_by f.size

end Feed

namespace Network

/-- What comes of asking for a feed. -/
inductive Opened where
  | feed (feed : Feed)
  | failed (error : ClientError)
  | waits
  deriving DecidableEq, Repr

/-- The address of the feed of a topic. -/
def feedAddress (topicUrl : String) : String := topicUrl ++ "/json"

/-- Asks for the feed of a topic. -/
def openFeed (net : Network) (topicUrl : String) (options : List RequestOption) :
    Network × Opened :=
  match net.request .get (feedAddress topicUrl) options [] with
  | (net, .error e) => (net, .failed e)
  | (net, .ok (status, body)) =>
    if isSuccess status then (net, .feed (.ofBody body))
    else match body.capped maxAnswer with
      | .read bytes => (net.leave body.ending, .failed (refusal status bytes))
      | .broken => (net, .failed (.transport .brokenBody))
      | .waits => (net, .waits)

end Network

end TopicFeed
