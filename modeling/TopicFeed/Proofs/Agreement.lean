import TopicFeed.Proofs.Limit

/-!
What publishing and polling read in the same answer.

Publishing decodes its answer as a whole, and a poll decodes the lines of its own; so an answer that
is one line is decoded once by either. But a line must be UTF-8, and the answer to a publish is read
leniently. So both agree on every answer that is UTF-8. Of any other a poll says that it is no text,
while publishing may find an event in it, whose raw text is not what the server sent.
-/

namespace TopicFeed

open Network

/-! ### An answer that is one line -/

namespace Feed

variable {t i : String}

lemma event_ofString (text : String) :
    event t i (Bytes.ofString text) = (Message.decode text t i).mapError .decode := by
  rw [event, Utf8.check?_eq_ok_iff.mpr rfl]

lemma event_of_not_text {line : Bytes} (h : ∀ text, line ≠ Bytes.ofString text) :
    ∃ f, Utf8.check? line = .error f ∧ event t i line = .error (.stream (.text f)) := by
  cases hcheck : Utf8.check? line with
  | ok text => exact absurd (Utf8.check?_eq_ok_iff.mp hcheck) (h text)
  | error f => exact ⟨f, rfl, by rw [event, hcheck]⟩

/-- A closed body without a line feed is one line, carriage return and all. -/
lemma collect_line {b : Body} (hclosed : b.ending = .closed) (hne : b.bytes ≠ [])
    (hline : Ascii.lineFeed ∉ b.bytes) (t i : String) :
    (ofBody b).collect t i =
      match event t i b.bytes with
      | .ok m => ([m].filter Message.isNotification, .returned none)
      | .error e => ([], .returned (some e)) := by
  have hverdict := collect_body b t i
  have hone : lines .closed b.bytes = [b.bytes] := by
    rw [lines_open hline, remainder, if_pos ⟨rfl, hne⟩]
  rw [hclosed, hone] at hverdict
  cases hevent : event t i b.bytes with
  | ok m =>
    have hgood : List.Forall₂ (Good t i) [b.bytes] [m] := .cons (event_eq_ok_iff.mp hevent) .nil
    obtain ⟨hms, hclose⟩ := hverdict.unique (.all hgood)
    exact Prod.ext hms hclose
  | error e =>
    have hfirst : [b.bytes] = [] ++ b.bytes :: [] := rfl
    have hbad := event_eq_error_iff.mp hevent
    obtain ⟨hms, hclose⟩ := hverdict.unique (.cut hfirst .nil hbad)
    exact Prod.ext hms hclose

end Feed

namespace Client

variable {c : Client} {net : Network} {topic url : String} {body : Bytes}
variable {options asked : List RequestOption} {status : Nat} {answer : Body}

/-- What a poll returns if its answer is one line. -/
def polledLine (topicUrl : String) (line : Bytes) : Polled :=
  match Feed.event topicUrl "" line with
  | .ok m => { messages := [m].filter Message.isNotification }
  | .error e => { error := some e }

lemma poll_of_line (hurl : c.resolve topic = .ok url)
    (hanswers : c.hub.network.Answers url (options ++ [.poll]) answer)
    (hclosed : answer.ending = .closed) (hne : answer.bytes ≠ [])
    (hline : Ascii.lineFeed ∉ answer.bytes) :
    (c.poll topic options).2 = .returned (polledLine url answer.bytes) := by
  have hcollect := Feed.collect_line hclosed hne hline url ""
  rw [poll, hurl, polledLine]
  cases hevent : Feed.event url "" answer.bytes with
  | ok m =>
    rw [hevent] at hcollect
    exact poll_of_answers hanswers hcollect
  | error e =>
    rw [hevent] at hcollect
    exact poll_of_answers hanswers hcollect

/-! ### Agreement -/

/-- A publish and a poll agree on what the bytes say: the one returns a notification exactly if the
other returns it and nothing else, and its raw text is these bytes. -/
def Agree (bytes : Bytes) (published : Call (Except ClientError Message)) (polled : Call Polled) :
    Prop :=
  ∀ m, (published = .returned (.ok m) ∧ m.isNotification = true ↔
      polled = .returned { messages := [m] }) ∧
    (polled = .returned { messages := [m] } → Bytes.ofString m.raw = bytes)

/-- The same text decoded on both ways. -/
lemma agree_of_text (text url : String) :
    Agree (Bytes.ofString text) (.returned ((Message.decode text url "").mapError .decode))
      (.returned (polledLine url (Bytes.ofString text))) := by
  rw [polledLine, Feed.event_ofString]
  cases hdecode : Message.decode text url "" with
  | error f => exact fun m => ⟨⟨nofun, nofun⟩, nofun⟩
  | ok m' =>
    intro m
    have hraw := Feed.raw_of_decode hdecode
    by_cases hnote : m'.isNotification = true
    · simp only [Except.mapError, hnote, List.filter_cons_of_pos, List.filter_nil]
      refine ⟨⟨?_, ?_⟩, ?_⟩
      · rintro ⟨hm, -⟩
        cases hm
        rfl
      · intro hm
        cases hm
        exact ⟨rfl, hnote⟩
      · intro hm
        cases hm
        rw [hraw]
    · have hnone : [m'].filter Message.isNotification = [] := by simp [hnote]
      simp only [Except.mapError, hnone]
      refine ⟨⟨?_, nofun⟩, nofun⟩
      rintro ⟨hm, hnote'⟩
      cases hm
      exact absurd hnote' hnote

/-- Where the poll fails, the other must not find a notification. -/
lemma agree_failed_iff {bytes : Bytes} {decoded : Except Json.LineFault Message} {e : ClientError} :
    Agree bytes (.returned (decoded.mapError .decode)) (.returned { error := some e }) ↔
      ∀ m, decoded = .ok m → m.isNotification = false := by
  constructor
  · rintro hagree m rfl
    -- a notification would have to be polled as well
    by_contra hnote
    rw [Bool.not_eq_false] at hnote
    cases (hagree m).1.mp ⟨rfl, hnote⟩
  · intro hnone m
    refine ⟨⟨?_, nofun⟩, nofun⟩
    rintro ⟨hm, hnote⟩
    cases decoded with
    | error f => cases hm
    | ok m' =>
      cases hm
      rw [hnone m rfl] at hnote
      cases hnote

/-- **Where publishing and polling agree.** Both get a success with the same bytes, which end there,
hold no line feed and are within the limit. If the bytes are UTF-8, both agree on them, and an
answer that is no event is refused by both for the same reason. Otherwise the poll fails, since a
line must be a text, and publishing decodes the lenient reading; then they agree only if that is no
notification, and what publishing returns never has these bytes as its raw text. -/
theorem publish_poll_agree (hurl : c.resolve topic = .ok url)
    (hpublish : (c.hub.network.request .post url options body).2 = .ok (status, answer))
    (hstatus : isSuccess status = true) {line : Body}
    (hpoll : net.Answers url (asked ++ [.poll]) line) (hsame : line.Alike answer)
    (hclosed : answer.ending = .closed) (hne : answer.bytes ≠ [])
    (hle : answer.bytes.length ≤ maxAnswer) (hline : Ascii.lineFeed ∉ answer.bytes) :
    let published := (c.publish topic body options).2
    let polled := ((c.on net).poll topic asked).2
    (∀ text, answer.bytes = Bytes.ofString text → Agree answer.bytes published polled ∧
      ∀ f, published = .returned (.error (.decode f)) ↔
        polled = .returned { error := some (.decode f) }) ∧
    ((∀ text, answer.bytes ≠ Bytes.ofString text) →
      (∃ f, polled = .returned { error := some (.stream (.text f)) }) ∧
      published =
        .returned ((Message.decode (Utf8.lenient answer.bytes) url "").mapError .decode) ∧
      (∀ m, published = .returned (.ok m) → Bytes.ofString m.raw ≠ answer.bytes) ∧
      (Agree answer.bytes published polled ↔
        ∀ m, Message.decode (Utf8.lenient answer.bytes) url "" = .ok m →
          m.isNotification = false)) := by
  intro published polled
  have hpublished : published =
      .returned ((Message.decode (Utf8.lenient answer.bytes) url "").mapError .decode) := by
    rw [← List.take_of_length_le hle]
    exact publish_of_success hurl hpublish hstatus (.inr hclosed)
  have hpolled : polled = .returned (polledLine url answer.bytes) := by
    rw [← hsame.bytes] at hne hline ⊢
    exact poll_of_line hurl hpoll (hsame.ending.trans hclosed) hne hline
  rw [hpublished, hpolled]
  refine ⟨fun text htext => ?_, fun hbad => ?_⟩
  · rw [htext, Utf8.lenient_ofString]
    refine ⟨agree_of_text text url, fun f => ?_⟩
    rw [polledLine, Feed.event_ofString]
    cases Message.decode text url "" with
    | error f' => simp [Except.mapError]
    | ok m => simp [Except.mapError]
  · obtain ⟨f, -, hevent⟩ := Feed.event_of_not_text (t := url) (i := "") hbad
    rw [polledLine, hevent]
    exact ⟨⟨f, rfl⟩, rfl, fun m _ => (hbad _).symm, agree_failed_iff⟩

/-- A notification with a carriage return at its end. -/
def returnedLine : Body where
  chunks := [Bytes.ofString "\x7b\"event\":\"message\",\"message\":\"é\"\x7d\r"]

theorem publish_poll_agree_returned :
    Agree returnedLine.bytes ((new {} (hostOf returnedLine)).publish "https://h/t" [] []).2
      (((new {} (hostOf returnedLine)).on (hostOf returnedLine)).poll "https://h/t" []).2 := by
  have hurl : (new {} (hostOf returnedLine)).resolve "https://h/t" = .ok "https://h/t" := rfl
  have hpublish : ((new {} (hostOf returnedLine)).hub.network.request .post "https://h/t" [] []).2 =
      .ok (200, returnedLine) := rfl
  have hpoll : (hostOf returnedLine).Answers "https://h/t" ([] ++ [.poll]) returnedLine :=
    ⟨200, rfl, rfl⟩
  obtain ⟨htext, -⟩ := publish_poll_agree hurl hpublish rfl hpoll ⟨rfl, rfl⟩ rfl
    (by decide +kernel) (by decide +kernel) (by decide +kernel)
  exact (htext _ (List.append_nil _)).1

/-- A notification with a byte in it that no text has. -/
def brokenLine : Body where
  chunks := [Bytes.ofString "\x7b\"event\":\"message\",\"message\":\"", [0xFF],
    Bytes.ofString "\"\x7d"]

/-- What publishing makes of it. -/
def mendedMessage : Message where
  event := "message"
  message := "\uFFFD"
  topicUrl := "https://h/t"
  raw := "\x7b\"event\":\"message\",\"message\":\"\uFFFD\"\x7d"

theorem publish_poll_disagree :
    ((new {} (hostOf brokenLine)).publish "https://h/t" [] []).2 = .returned (.ok mendedMessage) ∧
    Bytes.ofString mendedMessage.raw ≠ brokenLine.bytes ∧
    ((new {} (hostOf brokenLine)).poll "https://h/t" []).2 =
      .returned { error := some (.stream (.text (.invalid 1 30))) } ∧
    ¬Agree brokenLine.bytes ((new {} (hostOf brokenLine)).publish "https://h/t" [] []).2
      ((new {} (hostOf brokenLine)).poll "https://h/t" []).2 := by
  have hpublished : ((new {} (hostOf brokenLine)).publish "https://h/t" [] []).2 =
      .returned (.ok mendedMessage) := by
    decide +kernel
  have hpolled : ((new {} (hostOf brokenLine)).poll "https://h/t" []).2 =
      .returned { error := some (.stream (.text (.invalid 1 30))) } := by
    decide +kernel
  refine ⟨hpublished, by decide +kernel, hpolled, fun hagree => ?_⟩
  have hboth := (hagree mendedMessage).1.mp ⟨hpublished, rfl⟩
  rw [hpolled] at hboth
  cases hboth

end Client

end TopicFeed
