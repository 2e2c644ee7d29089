import TopicFeed.Client
import TopicFeed.Proofs.Lines
import TopicFeed.Proofs.Queue

/-!
What comes of one stream.

An attempt whose sink stays open hands over the notifications of its feed, one by one and in order,
and returns once the feed is at its end. Others may do what they like in between. A poll reads the
same feed without a sink, so it returns the same messages and the same error.
-/

namespace TopicFeed

open Network

/-- The end of a feed that comes, with the error that it comes with. -/
def Feed.Close.returned : Option ClientError → Feed.Close
  | none => .ended
  | some e => .failed e

lemma Feed.Close.returned_inj {e e' : Option ClientError} (h : returned e = returned e') :
    e = e' := by
  cases e with
  | none =>
    cases e' with
    | none => rfl
    | some _ => cases h
  | some e =>
    cases e' with
    | none => cases h
    | some e' =>
      cases h
      rfl

lemma Feed.Close.returned_eq_ended_iff {e : Option ClientError} :
    returned e = .ended ↔ e = none := by
  cases e with
  | none => exact ⟨fun _ => rfl, fun _ => rfl⟩
  | some e => exact ⟨nofun, nofun⟩

/-- A feed of a body that does not stay open comes to an end. -/
lemma Feed.Verdict.returned {t i : String} {ls : List Bytes} {ending : Ending} {ms : List Message}
    {close : Feed.Close} (h : Feed.Verdict t i ls ending ms close) (hending : ending ≠ .silent) :
    ∃ error, close = .returned error := by
  cases h with
  | all _ =>
    cases ending with
    | closed => exact ⟨none, rfl⟩
    | broken => exact ⟨some _, rfl⟩
    | silent => exact absurd rfl hending
  | cut _ _ _ => exact ⟨some _, rfl⟩

/-- What a move handed to the queue: to those who waited for a message, into the queue, or to the
pushes that wait for a place. -/
def Hub.received (before after : Hub) : List Message :=
  (after.handed.drop before.handed.length).map (·.2) ++
    after.queue.items.drop before.queue.items.length ++
    (after.queue.pushes.drop before.queue.pushes.length).map (·.2)

lemma Hub.received_of_unchanged {before after : Hub} (hq : after.queue = before.queue)
    (hh : after.handed = before.handed) (rest : List Message) :
    rest = before.received after ++ rest := by
  simp [received, hq, hh]

/-- A push into an open queue hands over its message, also if it has to wait for a place. -/
lemma Hub.received_push {hub : Hub} (hopen : hub.queue.isOpen = true) (ticket : Ticket)
    (m : Message) : hub.received (hub.accept (hub.queue.push ticket m).1) = [m] := by
  unfold Queue.push
  simp only [hopen, Bool.not_true, Bool.false_eq_true, if_false]
  split
  · next htakers =>
    simp [received, accept, Queue.Change.handed, Queue.Wake.message?]
  · split
    · simp [received, accept, Queue.Change.handed]
    · simp [received, accept, Queue.Change.handed]

namespace Attempt

/-- One move of an attempt. A push that waits gets its place. -/
def advance (who : Listener) (ticket : Ticket) (hub : Hub) : Attempt → Hub × Turn
  | pushing f => woken hub .entered (pushing f)
  | a => step who ticket hub a

/-- An attempt on its way: what it handed over, and what it has come to. -/
structure Passage where
  pushed : List Message := []
  turn : Turn

/-- One move further, in the hub that the attempt finds. -/
def Passage.move (who : Listener) (ticket : Ticket) (x : Passage) (hub : Hub) : Passage :=
  match x.turn with
  | .over _ => x
  | .goesOn a =>
    let (hub', turn) := a.advance who ticket hub
    { pushed := x.pushed ++ hub.received hub', turn }

/-- The way of an attempt from its beginning. Between any two moves others may turn the hub into
any other. -/
def passage (who : Listener) (ticket : Ticket) (hubs : List Hub) : Passage :=
  hubs.foldl (Passage.move who ticket) { turn := .goesOn .connecting }

/-- Somebody could take from the queue at every move. -/
def AllOpen (hubs : List Hub) : Prop := ∀ hub ∈ hubs, hub.queue.isOpen = true

/-! ### Reading one feed -/

/-- What is left of a feed, by what the attempt that reads it has come to. -/
def Left (who : Listener) (rest : List Message) (close : Feed.Close) : Turn → Prop
  | .goesOn (.awaiting (.feed f)) | .goesOn (.reading f) | .goesOn (.pushing f) =>
    f.collect who.topicUrl who.subscriptionId = (rest, close)
  | .goesOn .stalled => rest = [] ∧ close = .waits
  | .over none => rest = [] ∧ close = .ended
  | .over (some e) => rest = [] ∧ close = .failed e
  | .goesOn .connecting | .goesOn (.awaiting _) => False

/-- The messages that were handed over and those that are left are all of them. -/
def OnTheWay (who : Listener) (ms : List Message) (close : Feed.Close) (x : Passage) : Prop :=
  ∃ rest, ms = x.pushed ++ rest ∧ Left who rest close x.turn

/-- A bound on the moves that are left. -/
def left : Turn → Nat
  | .goesOn (.awaiting (.feed f)) | .goesOn (.pushing f) => 2 * f.size + 2
  | .goesOn (.reading f) => 2 * f.size + 1
  | .goesOn .connecting | .goesOn (.awaiting _) | .goesOn .stalled | .over _ => 0

variable {who : Listener} {ticket : Ticket} {hub : Hub} {hubs : List Hub} {ms rest : List Message}
  {close : Feed.Close} {x : Passage}

/-- What a reading move hands over, and what it leads to. -/
lemma read_left (ticket : Ticket) {f : Feed} (hopen : hub.queue.isOpen = true)
    (h : f.collect who.topicUrl who.subscriptionId = (rest, close)) :
    ∃ rest', rest = hub.received (read who ticket f hub).1 ++ rest' ∧
      Left who rest' close (read who ticket f hub).2 ∧
      left (read who ticket f hub).2 < 2 * f.size + 1 := by
  unfold read
  cases ha : f.arrival who.topicUrl who.subscriptionId with
  | notification m g =>
    have hlt := Feed.size_lt_of_notification ha
    rw [Feed.collect_of_notification ha] at h
    obtain ⟨rfl, hclose⟩ := Prod.mk.inj h
    -- a push that waits counts as handed over, so both outcomes leave the same rest
    have hreceived := Hub.received_push hopen ticket m
    have hclosed := Queue.push_ne_closed hopen ticket m
    simp only [hand]
    rcases hq : hub.queue.push ticket m with ⟨change, outcome⟩
    rw [hq] at hreceived hclosed
    cases outcome with
    | entered =>
      refine ⟨_, by rw [hreceived]; rfl, ?_, ?_⟩
      · exact Prod.ext rfl hclose
      · simp only [left]
        omega
    | waiting =>
      refine ⟨_, by rw [hreceived]; rfl, ?_, ?_⟩
      · exact Prod.ext rfl hclose
      · simp only [left]
        omega
    | closed => exact absurd rfl hclosed
  | control g =>
    have hlt := Feed.size_lt_of_control ha
    rw [Feed.collect_of_control ha] at h
    refine ⟨rest, Hub.received_of_unchanged rfl rfl rest, h, ?_⟩
    simp only [left]
    omega
  | ended =>
    rw [Feed.collect_of_ended ha] at h
    cases h
    exact ⟨[], Hub.received_of_unchanged rfl rfl [], ⟨rfl, rfl⟩, Nat.succ_pos _⟩
  | failed e =>
    rw [Feed.collect_of_failed ha] at h
    cases h
    exact ⟨[], Hub.received_of_unchanged rfl rfl [], ⟨rfl, rfl⟩, Nat.succ_pos _⟩
  | waits =>
    rw [Feed.collect_of_waits ha] at h
    cases h
    exact ⟨[], Hub.received_of_unchanged rfl rfl [], ⟨rfl, rfl⟩, Nat.succ_pos _⟩

/-- **A move keeps an attempt on its way** and uses up what is left. -/
lemma OnTheWay.move (h : OnTheWay who ms close x) (hopen : hub.queue.isOpen = true) :
    OnTheWay who ms close (x.move who ticket hub) ∧
      left (x.move who ticket hub).turn ≤ left x.turn - 1 := by
  obtain ⟨pushed, turn⟩ := x
  obtain ⟨rest, rfl, hleft⟩ := h
  have hnothing : ∀ {hub' : Hub}, hub'.queue = hub.queue → hub'.handed = hub.handed →
      pushed ++ rest = (pushed ++ hub.received hub') ++ rest := by
    intro hub' hq hh
    rw [List.append_assoc, ← Hub.received_of_unchanged hq hh]
  rcases turn with a | error
  · cases a with
    | connecting => exact hleft.elim
    | awaiting answer =>
      cases answer with
      | feed f => exact ⟨⟨rest, hnothing rfl rfl, hleft⟩, Nat.le_refl _⟩
      | failed _ | waits => exact hleft.elim
    | reading f =>
      obtain ⟨rest', rfl, hleft', hlt⟩ := read_left ticket hopen hleft
      exact ⟨⟨rest', (List.append_assoc _ _ _).symm, hleft'⟩, Nat.le_of_lt_succ hlt⟩
    | pushing f => exact ⟨⟨rest, hnothing rfl rfl, hleft⟩, Nat.le_refl _⟩
    | stalled => exact ⟨⟨rest, hnothing rfl rfl, hleft⟩, Nat.le_refl 0⟩
  · exact ⟨⟨rest, rfl, hleft⟩, Nat.le_refl 0⟩

/-- **A run keeps an attempt on its way,** and is over after as many moves as were left. -/
lemma OnTheWay.run (h : OnTheWay who ms close x) (hopen : AllOpen hubs) :
    OnTheWay who ms close (hubs.foldl (Passage.move who ticket) x) ∧
      left (hubs.foldl (Passage.move who ticket) x).turn ≤ left x.turn - hubs.length := by
  induction hubs generalizing x with
  | nil => exact ⟨h, Nat.le_refl _⟩
  | cons hub hubs ih =>
    obtain ⟨hmove, hlt⟩ := h.move (hopen hub (by simp))
    obtain ⟨hrun, hle⟩ := ih hmove fun hub hhub => hopen hub (List.mem_cons_of_mem _ hhub)
    refine ⟨hrun, Nat.le_trans hle ?_⟩
    rw [List.length_cons]
    omega

/-- An attempt with no moves left is over, unless its feed says nothing more for ever. -/
lemma OnTheWay.returned (h : OnTheWay who ms close x) (hleft : left x.turn = 0)
    (hclose : close ≠ .waits) :
    ∃ error, close = Feed.Close.returned error ∧ x = { pushed := ms, turn := .over error } := by
  obtain ⟨pushed, turn⟩ := x
  obtain ⟨rest, rfl, hrest⟩ := h
  rcases turn with a | _ | e
  · cases a with
    | connecting => exact hrest.elim
    | awaiting answer =>
      cases answer with
      | feed f => exact absurd hleft (Nat.succ_ne_zero _)
      | failed _ | waits => exact hrest.elim
    | reading f => exact absurd hleft (Nat.succ_ne_zero _)
    | pushing f => exact absurd hleft (Nat.succ_ne_zero _)
    | stalled => exact absurd hrest.2 hclose
  · obtain ⟨rfl, rfl⟩ := hrest
    exact ⟨none, rfl, by rw [List.append_nil]⟩
  · obtain ⟨rfl, rfl⟩ := hrest
    exact ⟨some e, rfl, by rw [List.append_nil]⟩

end Attempt

/-! ### A server that answers -/

/-- The server answers the request for the feed of a topic with a success and the given body. -/
def Network.Answers (net : Network) (topicUrl : String) (options : List RequestOption)
    (body : Body) : Prop :=
  ∃ status, (net.request .get (feedAddress topicUrl) options []).2 = .ok (status, body) ∧
    isSuccess status = true

lemma Network.Answers.opens {net : Network} {topicUrl : String} {options : List RequestOption}
    {body : Body} (h : net.Answers topicUrl options body) :
    (net.openFeed topicUrl options).2 = .feed (.ofBody body) := by
  obtain ⟨status, hanswer, hstatus⟩ := h
  unfold openFeed
  rcases hr : net.request .get (feedAddress topicUrl) options [] with ⟨net', answer⟩
  rw [hr] at hanswer
  simp only at hanswer
  subst hanswer
  simp only [hstatus, if_true]

namespace Attempt

variable {who : Listener} {ticket : Ticket} {hub : Hub} {ms : List Message}
  {error : Option ClientError} {body : Body}

/-- With a sink that stays open, an attempt that begins in the hub hands over the messages in order
and nothing else, and it returns. -/
def Brings (who : Listener) (ticket : Ticket) (hub : Hub) (ms : List Message)
    (error : Option ClientError) : Prop :=
  (∀ hubs, AllOpen hubs → (passage who ticket (hub :: hubs)).pushed <+: ms) ∧
  ∃ n, ∀ hubs, AllOpen hubs → n ≤ hubs.length →
    passage who ticket (hub :: hubs) = { pushed := ms, turn := .over error }

theorem brings (h : hub.network.Answers who.topicUrl who.options body)
    (hfeed : (Feed.ofBody body).collect who.topicUrl who.subscriptionId =
      (ms, .returned error)) : Brings who ticket hub ms error := by
  have hstart : OnTheWay who ms (.returned error)
      (Passage.move who ticket { turn := .goesOn .connecting } hub) := by
    refine ⟨ms, ?_, ?_⟩
    · exact Hub.received_of_unchanged rfl rfl ms
    · have hopens := h.opens
      simp only [Passage.move, advance, step, connect, hopens, Left]
      exact hfeed
  have hwaits : Feed.Close.returned error ≠ .waits := by
    cases error <;> simp [Feed.Close.returned]
  refine ⟨?_, left (Passage.move who ticket { turn := .goesOn .connecting } hub).turn, ?_⟩
  · intro hubs hopen
    obtain ⟨⟨rest, hms, -⟩, -⟩ := hstart.run hopen
    exact ⟨rest, hms.symm⟩
  · intro hubs hopen hlen
    obtain ⟨hrun, hle⟩ := hstart.run hopen
    obtain ⟨error', hclose, hover⟩ := hrun.returned (by omega) hwaits
    have herror : error = error' := Feed.Close.returned_inj hclose
    rw [herror]
    exact hover

end Attempt

/-! ### Polling -/

namespace Network

variable {net : Network} {topicUrl : String} {options : List RequestOption} {ms : List Message}
  {error : Option ClientError} {body : Body}

lemma poll_of_answers (h : net.Answers topicUrl (options ++ [.poll]) body)
    (hfeed : (Feed.ofBody body).collect topicUrl "" = (ms, .returned error)) :
    (net.poll topicUrl options).2 = .returned { messages := ms, error } := by
  have hopens := h.opens
  unfold poll
  rcases hr : net.openFeed topicUrl (options ++ [.poll]) with ⟨net', opened⟩
  rw [hr] at hopens
  simp only at hopens
  subst hopens
  rw [hr]
  cases error with
  | none => simp only [hfeed, Feed.Close.returned]
  | some e => simp only [hfeed, Feed.Close.returned]

lemma openFeed_unread {f : Feed} (h : (net.openFeed topicUrl options).2 = .feed f) :
    ∃ body, f = .ofBody body := by
  unfold openFeed at h
  split at h
  · cases h
  · next body _ =>
    split at h
    · cases h
      exact ⟨body, rfl⟩
    · split at h <;> cases h

end Network

/-- The error keeps a feed from being read at all. -/
def ClientError.isEarly : ClientError → Bool
  | .invalidTopic _ | .invalidOption _ | .transport _ | .server _ _ => true
  | .decode _ | .stream _ | .queueClosed | .canceled | .noRuntime => false

/-- A poll that fails early has no messages. -/
lemma Network.poll_early {net : Network} {topicUrl : String} {options : List RequestOption}
    {p : Polled} {e : ClientError} (h : (net.poll topicUrl options).2 = .returned p)
    (he : p.error = some e) (hearly : e.isEarly = true) : p.messages = [] := by
  unfold poll at h
  rcases hr : net.openFeed topicUrl (options ++ [.poll]) with ⟨net', opened⟩
  rw [hr] at h
  cases opened with
  | failed e' =>
    cases h
    rfl
  | waits => cases h
  | feed f =>
    obtain ⟨body, rfl⟩ := openFeed_unread (congrArg Prod.snd hr)
    have hverdict := Feed.collect_body body topicUrl ""
    rcases hc : (Feed.ofBody body).collect topicUrl "" with ⟨ms, close⟩
    rw [hc] at hverdict
    simp only [hc] at h
    cases close with
    | ended =>
      cases h
      cases he
    | waits => cases h
    | failed e' =>
      cases h
      obtain rfl : e' = e := Option.some.inj he
      rcases hverdict.error with ⟨f, rfl⟩ | ⟨f, rfl⟩
      · cases hearly
      · cases hearly

namespace Client

/-- **The outcome of one stream.** The lines of a body that comes to an end fix the messages and the
error. An attempt whose sink stays open hands over these messages for its subscription, and returns
with this error; a poll returns the messages for no subscription, together with the error. A blank
line is bad, and the stream ends well exactly if the body is closed and no line is bad. Whatever
else makes a poll fail, it returns no messages with it. -/
theorem stream_outcome :
    (∀ (topicUrl : String) (body : Network.Body), body.ending ≠ .silent →
      ∃ ms error,
        Feed.Verdict topicUrl "" (Feed.lines body.ending body.bytes) body.ending ms
          (.returned error) ∧
        (error = none ↔ body.ending = .closed ∧
          ∀ line ∈ Feed.lines body.ending body.bytes, ∃ m, Feed.Good topicUrl "" line m) ∧
        (∀ (who : Listener) (ticket : Ticket) (hub : Hub), who.topicUrl = topicUrl →
          hub.network.Answers topicUrl who.options body →
          Attempt.Brings who ticket hub (ms.map (Message.addressed who.subscriptionId)) error) ∧
        ∀ (c : Client) (topic : String) (options : List RequestOption),
          c.resolve topic = .ok topicUrl →
          c.hub.network.Answers topicUrl (options ++ [.poll]) body →
          (c.poll topic options).2 = .returned { messages := ms, error }) ∧
    (∀ topicUrl subscriptionId line, Json.Grammar.Blanks line →
      ∃ f, Feed.Bad topicUrl subscriptionId line (.decode f)) ∧
    ∀ (c : Client) (topic : String) (options : List RequestOption) (p : Polled) (e : ClientError),
      (c.poll topic options).2 = .returned p → p.error = some e → e.isEarly = true →
      p.messages = [] := by
  refine ⟨?_, fun t i line hline => Feed.bad_of_blanks hline t i, ?_⟩
  · intro topicUrl body hending
    have hverdict := Feed.collect_body body topicUrl ""
    rcases hcollect : (Feed.ofBody body).collect topicUrl "" with ⟨ms, close⟩
    rw [hcollect] at hverdict
    obtain ⟨error, rfl⟩ := hverdict.returned hending
    refine ⟨ms, error, hverdict, ?_, ?_, ?_⟩
    · rw [← hverdict.ended_iff, Feed.Close.returned_eq_ended_iff]
    · -- the attempt decodes under its own id, and the lines tell the same under any
      rintro who ticket hub rfl hanswers
      have haddressed := Feed.collect_addressed body who.topicUrl who.subscriptionId
      rw [hcollect] at haddressed
      exact Attempt.brings hanswers haddressed
    · intro c topic options hurl hanswers
      have hpoll := Network.poll_of_answers hanswers hcollect
      unfold poll
      rw [hurl]
      exact hpoll
  · intro c topic options p e h he hearly
    unfold poll at h
    cases hurl : c.resolve topic with
    | error e' =>
      rw [hurl] at h
      cases h
      rfl
    | ok url =>
      rw [hurl] at h
      exact Network.poll_early h he hearly

/-- The first line of a body that breaks off. -/
def wholeLine : String := "\x7b\"event\":\"message\",\"message\":\"a\"\x7d"

/-- A body that breaks off inside its third line. -/
def tornBody : Network.Body where
  chunks := [Bytes.ofString (wholeLine ++ "\r\n\x7b\"eve"),
    Bytes.ofString "nt\":\"open\"\x7d\n\x7b\"event\":\"message\"\x7d"]
  ending := .broken

def tornHost : Network where
  isPresent _ := true
  script := .inOrder [.answer 200 tornBody]
  beyond := .dropped

def tornListener : Listener where
  topicUrl := "https://h/t"
  subscriptionId := "0123456789"
  options := []

def tornMessage : Message where
  event := "message"
  message := "a"
  topicUrl := "https://h/t"
  raw := wholeLine

theorem stream_outcome_torn :
    Feed.Verdict "https://h/t" "" (Feed.lines .broken tornBody.bytes) .broken [tornMessage]
      (.failed (.stream (.body .brokenBody))) ∧
    Attempt.Brings tornListener 0 { network := tornHost, queue := { capacity := 1 } }
      [tornMessage.addressed "0123456789"] (some (.stream (.body .brokenBody))) := by
  obtain ⟨ms, error, hverdict, -, hstream, hpoll⟩ :=
    stream_outcome.1 "https://h/t" tornBody (by decide)
  have hpolled : ((new {} tornHost).poll "https://h/t" []).2 =
      .returned { messages := [tornMessage], error := some (.stream (.body .brokenBody)) } := by
    decide +kernel
  rw [hpoll (new {} tornHost) "https://h/t" [] (by decide +kernel) ⟨200, by decide +kernel, rfl⟩]
    at hpolled
  cases hpolled
  exact ⟨hverdict, hstream tornListener 0 _ rfl ⟨200, by decide +kernel, rfl⟩⟩

end Client

end TopicFeed
