import Mathlib.Data.List.TakeWhile
import TopicFeed.Proofs.Chunks
import TopicFeed.Proofs.Cut

/-!
What is reported of a request that the server refuses.

Publishing reads the answer before it looks at the status, and a feed looks at the status first; yet
both read it up to the same limit, and of an answer without success both say the same. So the error
of a refusal can be read off the answer alone, and nobody takes it for an event.
-/

namespace TopicFeed

open Network

/-! ### Trimming -/

namespace Text

/-- A text without the blanks that stood at its ends. -/
structure Trimmed (s t : String) : Prop where
  split : ∃ a b, s.toList = a ++ t.toList ++ b ∧ (∀ c ∈ a, isBlank c = true) ∧
    ∀ c ∈ b, isBlank c = true
  first : ∀ c, t.toList.head? = some c → isBlank c = false
  last : ∀ c, t.toList.getLast? = some c → isBlank c = false

lemma head?_dropWhile {cs : List Char} {c : Char} (h : (cs.dropWhile isBlank).head? = some c) :
    isBlank c = false := by
  have hnot := List.head?_dropWhile_not isBlank cs
  rw [h] at hnot
  exact hnot

lemma trimmed_trim (s : String) : Trimmed s (trim s) := by
  obtain ⟨body, hbody⟩ : ∃ body, s.toList.dropWhile isBlank = body := ⟨_, rfl⟩
  have hfront : s.toList = s.toList.takeWhile isBlank ++ body := by
    rw [← hbody, List.takeWhile_append_dropWhile]
  have hback : body = (body.reverse.dropWhile isBlank).reverse ++
      (body.reverse.takeWhile isBlank).reverse := by
    rw [← List.reverse_append, List.takeWhile_append_dropWhile, List.reverse_reverse]
  have htrim : (trim s).toList = (body.reverse.dropWhile isBlank).reverse := by
    rw [trim, hbody, String.toList_ofList]
  refine ⟨⟨s.toList.takeWhile isBlank, (body.reverse.takeWhile isBlank).reverse, ?_,
    fun c => List.mem_takeWhile_imp, fun c hc => ?_⟩, fun c hc => ?_, fun c hc => ?_⟩
  · rw [htrim, List.append_assoc, ← hback, ← hfront]
  · exact List.mem_takeWhile_imp (List.mem_reverse.mp hc)
  · -- what comes first of the rest comes first of all behind the blanks
    have hfirst : body.head? = some c := by
      rw [hback, List.head?_append, ← htrim, hc]
      rfl
    rw [← hbody] at hfirst
    exact head?_dropWhile hfirst
  · rw [htrim, List.getLast?_reverse] at hc
    exact head?_dropWhile hc

end Text

/-! ### The error of a refusal -/

namespace Network

/-- What is reported of a refusal: the status with the text in the first bytes of the body, or that
the body broke off before these were there; and nothing as long as they may still come. -/
inductive Refused (status : Nat) (answer : Body) : Option ClientError → Prop
  | server (h : maxAnswer ≤ answer.bytes.length ∨ answer.ending = .closed) :
    Refused status answer
      (some (.server status (Text.trim (Utf8.lenient (answer.bytes.take maxAnswer)))))
  | broken (hshort : answer.bytes.length < maxAnswer) (hending : answer.ending = .broken) :
    Refused status answer (some (.transport .brokenBody))
  | silent (hshort : answer.bytes.length < maxAnswer) (hending : answer.ending = .silent) :
    Refused status answer none

/-- What is reported if this comes of reading the answer up to the limit. -/
def reported (status : Nat) : Capped → Option ClientError
  | .read bytes => some (refusal status bytes)
  | .broken => some (.transport .brokenBody)
  | .waits => none

section Refused

variable {status : Nat} {answer : Body} {outcome : Option ClientError} {net : Network}
variable {topicUrl : String} {body : Bytes} {options : List RequestOption}

lemma refused_iff :
    Refused status answer outcome ↔ outcome = reported status (answer.capped maxAnswer) := by
  rw [answer.capped_eq]
  constructor
  · intro h
    cases h with
    | server h => rw [cappedBytes_eq_read_iff.mpr ⟨rfl, h⟩, reported, refusal]
    | broken hshort hending => rw [cappedBytes_eq_broken_iff.mpr ⟨hshort, hending⟩, reported]
    | silent hshort hending => rw [cappedBytes_eq_waits_iff.mpr ⟨hshort, hending⟩, reported]
  · rintro rfl
    cases hcapped : cappedBytes maxAnswer answer.ending answer.bytes with
    | read bytes =>
      obtain ⟨rfl, h⟩ := cappedBytes_eq_read_iff.mp hcapped
      exact .server h
    | broken =>
      obtain ⟨hshort, hending⟩ := cappedBytes_eq_broken_iff.mp hcapped
      exact .broken hshort hending
    | waits =>
      obtain ⟨hshort, hending⟩ := cappedBytes_eq_waits_iff.mp hcapped
      exact .silent hshort hending

lemma publish_unsuccessful (hstatus : isSuccess status = false)
    (hrequest : (net.request .post topicUrl options body).2 = .ok (status, answer)) :
    (net.publish topicUrl body options).2 =
      (reported status (answer.capped maxAnswer)).elim .waiting fun e => .returned (.error e) := by
  unfold publish
  generalize net.request .post topicUrl options body = x at hrequest ⊢
  obtain ⟨after, reply⟩ := x
  simp only at hrequest
  subst hrequest
  cases hcapped : answer.capped maxAnswer with
  | read bytes => simp [hcapped, hstatus, reported]
  | broken => simp [hcapped, reported]
  | waits => simp [hcapped, reported]

lemma openFeed_unsuccessful (hstatus : isSuccess status = false)
    (hrequest : (net.request .get (feedAddress topicUrl) options []).2 = .ok (status, answer)) :
    (net.openFeed topicUrl options).2 =
      (reported status (answer.capped maxAnswer)).elim .waits .failed := by
  unfold openFeed
  generalize net.request .get (feedAddress topicUrl) options [] = x at hrequest ⊢
  obtain ⟨after, reply⟩ := x
  simp only at hrequest
  subst hrequest
  simp only [hstatus, Bool.false_eq_true, if_false]
  cases answer.capped maxAnswer with
  | read bytes => rfl
  | broken => rfl
  | waits => rfl

lemma poll_unsuccessful
    (h : (net.openFeed topicUrl (options ++ [.poll])).2 = outcome.elim .waits .failed) :
    (net.poll topicUrl options).2 =
      outcome.elim .waiting fun e => .returned { messages := [], error := some e } := by
  unfold poll
  generalize net.openFeed topicUrl (options ++ [.poll]) = x at h ⊢
  obtain ⟨after, opened⟩ := x
  simp only at h
  subst h
  cases outcome with
  | none => rfl
  | some e => rfl

end Refused

end Network

namespace Attempt

variable {who : Listener} {ticket : Ticket} {hub : Hub} {turn : Turn}

/-- Nothing comes of an attempt any more. -/
def Settled (turn : Turn) : Prop := turn = .goesOn .stalled ∨ ∃ error, turn = .over error

lemma Settled.run (h : Settled turn) (hubs : List Hub) :
    hubs.foldl (Passage.move who ticket) { pushed := [], turn } = { pushed := [], turn } := by
  induction hubs with
  | nil => rfl
  | cons hub hubs ih =>
    have hmove : Passage.move who ticket { pushed := [], turn } hub = { pushed := [], turn } := by
      rcases h with rfl | ⟨error, rfl⟩
      · simp [Passage.move, advance, step, Hub.received]
      · rfl
    rw [List.foldl_cons, hmove, ih]

/-- An attempt to open a feed that is no feed hands over nothing, and it ends with the error, or
waits for ever for one. -/
lemma passage_unsuccessful {outcome : Option ClientError}
    (h : (hub.network.openFeed who.topicUrl who.options).2 = outcome.elim .waits .failed)
    (hubs : List Hub) :
    (passage who ticket (hub :: hubs)).pushed = [] ∧
      (hubs ≠ [] → (passage who ticket (hub :: hubs)).turn =
        outcome.elim (.goesOn .stalled) fun e => .over (some e)) := by
  have hconnect : Passage.move who ticket { turn := .goesOn .connecting } hub =
      { pushed := [], turn := .goesOn (.awaiting (outcome.elim .waits .failed)) } := by
    simp [Passage.move, advance, step, connect, h, Hub.received]
  rw [passage, List.foldl_cons, hconnect]
  rcases hubs with _ | ⟨next, hubs⟩
  · exact ⟨rfl, fun hne => absurd rfl hne⟩
  · have hreceive : Passage.move who ticket
        { pushed := [], turn := .goesOn (.awaiting (outcome.elim .waits .failed)) } next =
        { pushed := [], turn := outcome.elim (.goesOn .stalled) fun e => .over (some e) } := by
      cases outcome <;> simp [Passage.move, advance, step, receive, Hub.received]
    have hsettled : Settled (outcome.elim (.goesOn .stalled) fun e => .over (some e)) := by
      cases outcome with
      | none => exact .inl rfl
      | some e => exact .inr ⟨_, rfl⟩
    rw [List.foldl_cons, hreceive, hsettled.run]
    exact ⟨rfl, fun _ => rfl⟩

end Attempt

namespace Client

/-- **All operations report a refusal alike.** An answer without success fixes one outcome. It is
the status with the text in the first bytes of the body, less the blanks at both ends; or, if the
body breaks off before these bytes are there, that it did; or nothing, if the server stays silent
before. Publishing, polling and each attempt to follow a topic come to this outcome, and none of
them brings a message. If the body is the bytes of a text, then what is trimmed is the longest part
of the text within the limit, with one U+FFFD behind it exactly if the limit falls inside a
character. -/
theorem refused_alike {status : Nat} (hstatus : isSuccess status = false) (answer : Body) :
    (∃ outcome, (∀ other, Refused status answer other ↔ other = outcome) ∧
      (∀ (c : Client) (topic url : String) (body : Bytes) (options : List RequestOption),
        c.resolve topic = .ok url →
        (c.hub.network.request .post url options body).2 = .ok (status, answer) →
        (c.publish topic body options).2 =
          outcome.elim .waiting fun e => .returned (.error e)) ∧
      (∀ (c : Client) (topic url : String) (options : List RequestOption),
        c.resolve topic = .ok url →
        (c.hub.network.request .get (feedAddress url) (options ++ [.poll]) []).2 =
          .ok (status, answer) →
        (c.poll topic options).2 =
          outcome.elim .waiting fun e => .returned { messages := [], error := some e }) ∧
      ∀ (who : Listener) (ticket : Ticket) (hub : Hub) (hubs : List Hub),
        (hub.network.request .get (feedAddress who.topicUrl) who.options []).2 =
          .ok (status, answer) →
        (Attempt.passage who ticket (hub :: hubs)).pushed = [] ∧
          (hubs ≠ [] → (Attempt.passage who ticket (hub :: hubs)).turn =
            outcome.elim (.goesOn .stalled) fun e => .over (some e))) ∧
    (∀ s, Text.Trimmed s (Text.trim s)) ∧
    ∀ text, answer.bytes = Bytes.ofString text → ∃ ds,
      Utf8.Longest maxAnswer text.toList ds ∧
      (¬Utf8.Inside maxAnswer text.toList →
        Utf8.lenient (answer.bytes.take maxAnswer) = String.ofList ds) ∧
      (Utf8.Inside maxAnswer text.toList →
        Utf8.lenient (answer.bytes.take maxAnswer) = String.ofList (ds ++ ['\uFFFD'])) := by
  refine ⟨?_, Text.trimmed_trim, fun text htext => htext ▸ Utf8.lenient_longest text maxAnswer⟩
  refine ⟨_, fun other => refused_iff, fun c topic url body options hurl hrequest => ?_,
    fun c topic url options hurl hrequest => ?_, fun who ticket hub hubs hrequest => ?_⟩
  · rw [publish, hurl]
    exact publish_unsuccessful hstatus hrequest
  · rw [poll, hurl]
    exact poll_unsuccessful (openFeed_unsuccessful hstatus hrequest)
  · exact Attempt.passage_unsuccessful (openFeed_unsuccessful hstatus hrequest) hubs

/-- A body with blanks at both ends and a byte that no text has. -/
def blurredBody : Body where
  chunks := [Bytes.ofString "\u00A0no", [0xC3, Ascii.lineFeed]]

/-- A host that fails over the first request. -/
def failingHost (answer : Body) : Network where
  isPresent _ := true
  script := .inOrder [.answer 500 answer]
  beyond := .dropped

/-- A listener at this host. -/
def blurredListener : Listener where
  topicUrl := "https://h/t"
  subscriptionId := "0123456789"
  options := []

theorem refused_alike_blurred :
    ((new {} (failingHost blurredBody)).publish "https://h/t" [] []).2 =
      .returned (.error (.server 500 "no\uFFFD")) ∧
    ((new {} (failingHost blurredBody)).poll "https://h/t" []).2 =
      .returned { messages := [], error := some (.server 500 "no\uFFFD") } ∧
    (Attempt.passage blurredListener 0
      (List.replicate 2 (new {} (failingHost blurredBody)).hub)).turn =
      .over (some (.server 500 "no\uFFFD")) := by
  have hstatus : isSuccess 500 = false := rfl
  obtain ⟨⟨outcome, honly, hpublish, hpoll, hattempt⟩, -, -⟩ := refused_alike hstatus blurredBody
  have hmessage : Text.trim (Utf8.lenient (blurredBody.bytes.take maxAnswer)) = "no\uFFFD" := by
    decide +kernel
  have houtcome := (honly _).mp (.server (.inr rfl))
  rw [hmessage] at houtcome
  subst houtcome
  exact ⟨hpublish (new {} (failingHost blurredBody)) "https://h/t" "https://h/t" [] [] rfl rfl,
    hpoll (new {} (failingHost blurredBody)) "https://h/t" "https://h/t" [] rfl rfl,
    (hattempt blurredListener 0 _ [_] rfl).2 (List.cons_ne_nil _ _)⟩

end Client

end TopicFeed
