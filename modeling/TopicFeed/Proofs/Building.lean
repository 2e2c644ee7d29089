import TopicFeed.Proofs.Address
import TopicFeed.Proofs.Authorization
import TopicFeed.Proofs.Edits
import TopicFeed.Proofs.Validation

/-!
Which requests can be built from their options.

A header is checked when an option sets it, and a name and a password fit into a header whatever
they are, since they are encoded. A token is sent as it is, and nothing looks at it before the
request is built. So options that are accepted make a request every time, unless the credentials in
force are a token that no header can carry; then no request is ever made of them.
-/

namespace TopicFeed

open Network Request

/-! ### Header values -/

namespace Text.Base64

lemma isValueChar_digit (n : Nat) : Header.isValueChar (digit n) = true := by
  -- All numbers from here on share the last digit.
  have hdigits : ∀ n < 63, Header.isValueChar (digit n) = true := by decide
  rcases Nat.lt_or_ge n 63 with hlt | hge
  · exact hdigits n hlt
  · have hlast : digit n = '/' := by
      unfold digit
      rw [if_neg (by omega), if_neg (by omega), if_neg (by omega), if_neg (by omega)]
    rw [hlast]
    decide

lemma isValueChar_encode (bytes : Bytes) : ∀ c ∈ encode bytes, Header.isValueChar c = true := by
  have hpadding : Header.isValueChar '=' = true := by decide
  induction bytes using encode.induct with
  | case1 a b c rest ih => simpa [encode, isValueChar_digit] using ih
  | case2 a b => simp [encode, isValueChar_digit, hpadding]
  | case3 a => simp [encode, isValueChar_digit, hpadding]
  | case4 => simp [encode]

end Text.Base64

namespace Request

lemma Header.isValue_append (a b : String) :
    Header.isValue (a ++ b) = (Header.isValue a && Header.isValue b) := by
  simp [Header.isValue, String.toList_append]

/-- Credentials are sent as a header value. -/
lemma Credentials.isValue {c : Credentials} {value : String} (h : c.value? = some value) :
    Header.isValue value = true := by
  cases c with
  | basic user password =>
    cases h
    rw [Header.isValue_append, Bool.and_eq_true]
    refine ⟨by decide, List.all_eq_true.mpr fun c hc => ?_⟩
    rw [String.toList_ofList] at hc
    exact Text.Base64.isValueChar_encode _ c hc
  | token t =>
    simp only [value?] at h
    split at h
    · next hvalue =>
      cases h
      exact hvalue
    · cases h

/-- Only a token can be what no header carries. -/
lemma Credentials.isSome_value?_iff (c : Credentials) :
    c.value?.isSome = true ↔ ∀ t, c = .token t → Header.isValue t = true := by
  cases c with
  | basic user password => simp [value?]
  | token t =>
    have hbearer : Header.isValue "Bearer " = true := by decide
    simp [value?, Header.isValue_append, hbearer]

/-- All headers of a specification have values that are header values. -/
def Spec.Sound (spec : Spec) : Prop := ∀ e ∈ spec.headers, Header.isValue e.2 = true

section Steps

variable {spec : Spec} {options : List RequestOption}

lemma Spec.sound_of_options (h : Spec.ofOptions options = .ok spec) : spec.Sound := by
  have htidy : spec.Tidy := Spec.ofOptions_induction (P := fun _ spec => spec.Tidy) Spec.tidy_empty
    (fun _ o _ _ hspec ho => hspec.edit (e := .option o) ho) h
  exact fun x hx => (htidy.valid x.1 x.2 hx).2

/-- **Every header of a request has a value that is a header value.** -/
theorem isValue_headers (h : Spec.ofOptions options = .ok spec) {method : Method} {address : String}
    {body : Bytes} {r : Request} (hr : ofSpec method address spec body = .ok r) :
    ∀ e ∈ r.headers, Header.isValue e.2 = true := by
  obtain ⟨url, -, -, -, -, rfl⟩ := ofSpec_eq_ok_iff.mp hr
  have hentry : ∀ credentials : Option Credentials,
      ∀ e ∈ (credentials.bind Credentials.value?).toList.map fun v => (Header.authorization, v),
      Header.isValue e.2 = true := by
    intro credentials e he
    obtain ⟨value, hvalue, rfl⟩ := List.mem_map.mp he
    obtain ⟨c, -, hc⟩ := Option.bind_eq_some_iff.mp (Option.mem_toList.mp hvalue)
    exact c.isValue hc
  intro e he
  simp only [onUrl, headersOf, List.mem_append] at he
  rcases he with (he | he) | he
  · split at he
    · cases he
    · exact hentry _ e he
  · exact Spec.sound_of_options h e he
  · exact hentry _ e he

end Steps

end Request

/-! ### Options that fit -/

namespace RequestOption

/-- A token that is in force is a header value. -/
def Fit (options : List RequestOption) : Prop :=
  ∀ token, credentialsInForce options = some (.token token) → Header.isValue token = true

lemma fit_iff (options : List RequestOption) : Fit options ↔
    (credentialsInForce options).all (fun c => c.value?.isSome) = true := by
  unfold Fit
  rcases credentialsInForce options with _ | c
  · simp
  · simp [Credentials.isSome_value?_iff]

instance (options : List RequestOption) : Decidable (Fit options) :=
  decidable_of_iff' _ (fit_iff options)

lemma fit_poll (options : List RequestOption) : Fit (options ++ [.poll]) ↔ Fit options := by
  rw [Fit, credentialsInForce_concat]
  rfl

lemma carriable_iff {options : List RequestOption} {spec : Spec}
    (h : Spec.ofOptions options = .ok spec) : spec.Carriable ↔ Fit options := by
  rw [fit_iff, ← (Spec.authorizes_of_options h).credentials, Spec.Carriable]
  rcases spec.credentials with _ | c <;> simp

end RequestOption

open RequestOption

namespace Network

variable {method : Method} {address topicUrl : String} {options : List RequestOption} {body : Bytes}

/-- The options make this request for the address. -/
def Builds (method : Method) (address : String) (options : List RequestOption) (body : Bytes)
    (r : Request) : Prop :=
  ∃ spec, Spec.ofOptions options = .ok spec ∧ ofSpec method address spec body = .ok r

/-- **Options that fit make a request every time.** -/
lemma exists_builds (h : firstFault? options = none) (haddress : Askable address)
    (hfit : Fit options) (method : Method) (body : Bytes) :
    ∃ r, Builds method address options body r := by
  obtain ⟨spec, hspec⟩ := Spec.exists_ofOptions h
  obtain ⟨r, hr⟩ := (exists_ofSpec_iff method body).mpr ⟨haddress, (carriable_iff hspec).mpr hfit⟩
  exact ⟨r, spec, hspec, hr⟩

/-- A request that is made is sent. -/
lemma Builds.sends {r : Request} (h : Builds method address options body r) (net : Network) :
    net.Sends method address options body r := by
  obtain ⟨spec, hspec, hr⟩ := h
  rw [Sends, request, hspec]
  simp only [hr]

lemma Builds.isValue_headers {r : Request} (h : Builds method address options body r) :
    ∀ e ∈ r.headers, Header.isValue e.2 = true := by
  obtain ⟨spec, hspec, hr⟩ := h
  exact Request.isValue_headers hspec hr

/-- **Options that do not fit never make a request.** -/
lemma request_unfit (h : firstFault? options = none) (haddress : Askable address)
    (hfit : ¬Fit options) (net : Network) (method : Method) (body : Bytes) :
    net.request method address options body = (net, .error (.transport .unbuildable)) := by
  obtain ⟨spec, hspec⟩ := Spec.exists_ofOptions h
  obtain ⟨url, hurl, hhost, -⟩ := haddress
  have hcredentials : spec.credentials.all (·.value?.isSome) = false := by
    rw [← carriable_iff hspec, Spec.Carriable] at hfit
    rcases hc : spec.credentials with _ | c
    · simp [hc] at hfit
    · simpa [hc] using hfit
  have hr : ofSpec method address spec body = .error .unbuildable := by
    rw [ofSpec_eq, hurl]
    simp [hhost, hcredentials]
  rw [request, hspec]
  simp only [hr]

lemma openFeed_unfit (h : firstFault? options = none) (haddress : Askable (feedAddress topicUrl))
    (hfit : ¬Fit options) (net : Network) :
    net.openFeed topicUrl options = (net, .failed (.transport .unbuildable)) := by
  rw [openFeed, request_unfit h haddress hfit]

/-- Asking for a feed sends the request, and no other. -/
lemma openFeed_sends {net : Network} {r : Request}
    (h : net.Sends .get (feedAddress topicUrl) options [] r) :
    (net.openFeed topicUrl options).1.requests = (net.send r).1.requests := by
  rw [openFeed, h]
  rcases (net.send r).2 with f | ⟨status, answer⟩
  · rfl
  · simp only [Except.mapError]
    split
    · rfl
    · split <;> rfl

end Network

namespace Client

open Loop

/-! ### Calls and attempts -/

variable {c : Client} {topic url : String} {options : List RequestOption} {e : ClientError}

lemma publish_fit (hvalid : c.Valid topic options) (hurl : c.resolve topic = .ok url)
    (haddress : Askable url) (hfit : Fit options) (body : Bytes) :
    (∃ r, Builds .post url options body r ∧ c.hub.network.Sends .post url options body r) ∧
      ∀ e, (c.publish topic body options).2.error? = some e → e.isUnsent = false := by
  have hoptions := firstFault?_eq_none_iff.mpr hvalid.options
  obtain ⟨r, hr⟩ := exists_builds hoptions haddress hfit .post body
  have hsends := hr.sends c.hub.network
  refine ⟨⟨r, hr, hsends⟩, fun e he => ?_⟩
  by_contra hsent
  have hunsent : e.isUnsent = true := Bool.of_not_eq_false hsent
  exact hsent (hsends.isUnsent (publish_unsent hurl (Call.error?_eq_some_iff.mp he) hunsent))

lemma publish_unfit (hvalid : c.Valid topic options) (hurl : c.resolve topic = .ok url)
    (haddress : Askable url) (hfit : ¬Fit options) (body : Bytes) :
    c.publish topic body options = (c, .returned (.error (.transport .unbuildable))) := by
  have hoptions := firstFault?_eq_none_iff.mpr hvalid.options
  rw [publish, hurl]
  simp only [Network.publish, request_unfit hoptions haddress hfit]

lemma poll_fit (hvalid : c.Valid topic options) (hurl : c.resolve topic = .ok url)
    (haddress : Askable (feedAddress url)) (hfit : Fit options) :
    (∃ r, Builds .get (feedAddress url) (options ++ [.poll]) [] r ∧
        c.hub.network.Sends .get (feedAddress url) (options ++ [.poll]) [] r) ∧
      ∀ e, (c.poll topic options).2.pollError? = some e → e.isUnsent = false := by
  have hoptions := firstFault?_eq_none_iff.mpr hvalid.options
  rw [← firstFault?_poll] at hoptions
  rw [← fit_poll] at hfit
  obtain ⟨r, hr⟩ := exists_builds hoptions haddress hfit .get []
  have hsends := hr.sends c.hub.network
  refine ⟨⟨r, hr, hsends⟩, fun e he => ?_⟩
  obtain ⟨p, hp, he⟩ := Call.pollError?_eq_some_iff.mp he
  by_contra hsent
  exact hsent (hsends.isUnsent (poll_unsent hurl hp he (Bool.of_not_eq_false hsent)))

lemma poll_unfit (hvalid : c.Valid topic options) (hurl : c.resolve topic = .ok url)
    (haddress : Askable (feedAddress url)) (hfit : ¬Fit options) :
    c.poll topic options = (c, .returned { error := some (.transport .unbuildable) }) := by
  have hoptions := firstFault?_eq_none_iff.mpr hvalid.options
  rw [← firstFault?_poll] at hoptions
  rw [← fit_poll] at hfit
  rw [poll, hurl]
  simp only [Network.poll, openFeed_unfit hoptions haddress hfit]

/-- An attempt that asks for its feed sends its request. -/
lemma step_sends {l : Loop} {r : Request} (hc : l.canceled = false)
    (hp : l.phase = .attempting .connecting) {hub : Hub}
    (h : Builds .get (feedAddress l.who.topicUrl) l.who.options [] r) :
    (l.step hub).1.network.requests = (hub.network.send r).1.requests := by
  rw [← openFeed_sends (h.sends hub.network)]
  simp [Loop.step, hc, hp, Attempt.step, Attempt.connect, Loop.take]

/-- What fails was sent. -/
lemma failsFor_of_builds {who : Listener} {r : Request}
    (h : Builds .get (feedAddress who.topicUrl) who.options [] r) :
    who.FailsFor fun e => e.isUnsent = false := by
  intro net e he
  by_contra hsent
  exact hsent ((h.sends net).isUnsent (openFeed_unsent he (Bool.of_not_eq_false hsent)))

/-- **What becomes of requests whose options were accepted.** The address of a feed is as good as
that of its topic, and a request that is built has header values only. If the options fit, then
publishing and polling send their request, each attempt of a loop that asks for its feed sends its
request, and nothing fails for the making of one. If they do not fit, because of a token that no
header can carry, then the topic is followed all the same, and each attempt fails before anything is
sent, as publishing and polling do. -/
theorem requests_of_options (settings : Settings) (network : Network) (moves : List Move) :
    (∀ url, Askable url → Url.EndsPlainly url → Askable (feedAddress url)) ∧
    (∀ method address options body r, Builds method address options body r →
      ∀ e ∈ r.headers, Header.isValue e.2 = true) ∧
    (∀ (c : Client) (topic url : String) (options : List RequestOption),
      c.Valid topic options → c.resolve topic = .ok url →
      (Askable url → ∀ body,
        (Fit options →
          (∃ r, Builds .post url options body r ∧ c.hub.network.Sends .post url options body r) ∧
          ∀ e, (c.publish topic body options).2.error? = some e → e.isUnsent = false) ∧
        (¬Fit options →
          c.publish topic body options = (c, .returned (.error (.transport .unbuildable))))) ∧
      (Askable (feedAddress url) →
        (Fit options →
          (∃ r, Builds .get (feedAddress url) (options ++ [.poll]) [] r ∧
            c.hub.network.Sends .get (feedAddress url) (options ++ [.poll]) [] r) ∧
          ∀ e, (c.poll topic options).2.pollError? = some e → e.isUnsent = false) ∧
        (¬Fit options →
          c.poll topic options = (c, .returned { error := some (.transport .unbuildable) })))) ∧
    ∀ (t : Ticket) (who : Listener),
      (course settings network moves).client.listeners[t]? = some who →
      (∃ spec, Spec.ofOptions who.options = .ok spec) ∧
      (Askable (feedAddress who.topicUrl) →
        (Fit who.options →
          (∃ r, Builds .get (feedAddress who.topicUrl) who.options [] r ∧
            ∀ (l : Loop) (hub : Hub), l.who = who → l.canceled = false →
              l.phase = .attempting .connecting →
              (l.step hub).1.network.requests = (hub.network.send r).1.requests) ∧
          ∀ ev ∈ trace settings network t moves, ∀ e, ev.error? = some e → e.isUnsent = false) ∧
        (¬Fit who.options → ∀ net : Network,
          net.openFeed who.topicUrl who.options = (net, .failed (.transport .unbuildable)))) := by
  refine ⟨fun url => askable_feedAddress, fun _ _ _ _ _ => Builds.isValue_headers,
    fun c topic url options hvalid hurl => ⟨?_, ?_⟩, ?_⟩
  · exact fun haddress body => ⟨fun hfit => publish_fit hvalid hurl haddress hfit body,
      fun hfit => publish_unfit hvalid hurl haddress hfit body⟩
  · exact fun haddress => ⟨poll_fit hvalid hurl haddress, poll_unfit hvalid hurl haddress⟩
  · intro t who hwho
    have hthrough : firstFault? who.options = none := by
      rw [listeners_getElem?] at hwho
      obtain ⟨l, hl, rfl⟩ := Option.map_eq_some_iff.mp hwho
      exact (letThrough_course settings network moves t l hl).options
    refine ⟨Spec.exists_ofOptions hthrough, fun haddress => ⟨fun hfit => ?_, fun hfit net => ?_⟩⟩
    · obtain ⟨r, hr⟩ := exists_builds hthrough haddress hfit .get []
      refine ⟨⟨r, hr, ?_⟩, fun ev hev e he => ?_⟩
      · rintro l hub rfl hc hp
        exact step_sends hc hp hr
      · exact error_of_trace (fun _ h => h) hwho (failsFor_of_builds hr) hev he
    · exact openFeed_unfit hthrough haddress hfit net

/-- A token of two lines. -/
def brokenToken : List RequestOption := [.bearerAuth "a\nb"]

theorem requests_of_broken_token :
    (new {} droppingHost).publish "https://h/t" [] brokenToken =
      (new {} droppingHost, .returned (.error (.transport .unbuildable))) ∧
    ∃ r, Builds .post "https://h/t" [.bearerAuth "k"] [] r := by
  obtain ⟨-, -, hcalls, -⟩ := requests_of_options {} droppingHost []
  refine ⟨?_, ?_⟩
  · exact ((hcalls (new {} droppingHost) "https://h/t" "https://h/t" brokenToken
      ⟨⟨_, rfl⟩, by decide +kernel⟩ rfl).1 (by decide +kernel) []).2 (by decide +kernel)
  · obtain ⟨⟨r, hr, -⟩, -⟩ := ((hcalls (new {} droppingHost) "https://h/t" "https://h/t"
      [.bearerAuth "k"] ⟨⟨_, rfl⟩, by decide +kernel⟩ rfl).1 (by decide +kernel) []).1
      (by decide +kernel)
    exact ⟨r, hr⟩

/-- A topic is followed with it, and the first attempt is made. -/
def followWithBrokenToken : List Move :=
  [.subscribe ["0123456789"] true "https://h/t" brokenToken, .step 0, .step 0]

theorem broken_token_followed :
    ((new {} droppingHost).subscribe ["0123456789"] true "https://h/t" brokenToken).2 =
      .returned (.ok "0123456789") ∧
    trace {} droppingHost 0 followWithBrokenToken =
      [.asked, .ended (some (.transport .unbuildable))] ∧
    (course {} droppingHost followWithBrokenToken).client.requests = [] := by
  decide +kernel

end Client

end TopicFeed
