import TopicFeed.Proofs.Loops

/-!
Validation before any effect.

A topic and a list of options are judged by themselves, so a call can be refused before it does
anything, and nothing that was let through is refused for them later: not on the way to the
network, and not in any attempt of a loop.
-/

namespace TopicFeed

open Network RequestOption

/-- The error that a call returned, if it failed. -/
def Call.error? {α : Type} : Call (Except ClientError α) → Option ClientError
  | .returned (.error e) => some e
  | .returned (.ok _) | .waiting => none

/-- The error that a poll returned, if it failed. -/
def Call.pollError? : Call Polled → Option ClientError
  | .returned p => p.error
  | .waiting => none

lemma Call.error?_eq_some_iff {α : Type} {call : Call (Except ClientError α)} {e : ClientError} :
    call.error? = some e ↔ call = .returned (.error e) := by
  rcases call with (e' | a) | _ <;> simp [error?]

lemma Call.pollError?_eq_some_iff {call : Call Polled} {e : ClientError} :
    call.pollError? = some e ↔ ∃ p, call = .returned p ∧ p.error = some e := by
  rcases call with p | _ <;> simp [pollError?]

namespace Client

/-- The topic has a URL, and no option is bad. -/
structure Valid (c : Client) (topic : String) (options : List RequestOption) : Prop where
  topic : ∃ url, c.resolve topic = .ok url
  options : ∀ o ∈ options, o.fault? = none

/-- A call, from one client to the next, that looks at its topic first, then at its options, and
only then does anything. -/
structure ChecksFirst (c c' : Client) (topic : String) (options : List RequestOption)
    (error? : Option ClientError) : Prop where
  topic_iff : ∀ t, error? = some (.invalidTopic t) ↔ t = topic ∧ ∃ e, c.resolve topic = .error e
  option_iff : ∀ f, error? = some (.invalidOption f) ↔
    (∃ url, c.resolve topic = .ok url) ∧ firstFault? options = some f
  unchanged : ∀ e, error? = some e → e.isValidation = true → c' = c
  valid : c' ≠ c → c.Valid topic options

/-! ### Calls -/

section Calls

variable {c c' : Client} {topic : String} {options : List RequestOption}

lemma refusal?_eq_none_iff_valid : c.refusal? topic options = none ↔ c.Valid topic options := by
  rw [refusal?_eq_none_iff, firstFault?_eq_none_iff]
  exact ⟨fun h => ⟨h.1, h.2⟩, fun h => ⟨h.topic, h.options⟩⟩

/-- A call that does nothing but fail if it is refused, and that fails with no such error if it is
not, checks first. -/
lemma checksFirst {error? : Option ClientError}
    (hrefused : ∀ e, c.refusal? topic options = some e → c' = c ∧ error? = some e)
    (haccepted : c.refusal? topic options = none → ∀ e, error? = some e → e.isValidation = false) :
    ChecksFirst c c' topic options error? := by
  -- An error of validation is what the call fails with exactly if it is refused for it.
  have hsame : ∀ e, e.isValidation = true →
      (error? = some e ↔ c.refusal? topic options = some e) := by
    intro e he
    rcases hr : c.refusal? topic options with _ | e'
    · refine ⟨fun h => ?_, fun h => by cases h⟩
      rw [haccepted hr e h] at he
      cases he
    · rw [(hrefused e' hr).2]
  refine ⟨fun t => ?_, fun f => ?_, fun e he hvalidation => ?_, fun hne => ?_⟩
  · rw [hsame _ rfl, refusal?_invalidTopic_iff]
  · rw [hsame _ rfl, refusal?_invalidOption_iff]
  · exact (hrefused e ((hsame e hvalidation).mp he)).1
  · rw [← refusal?_eq_none_iff_valid, ← Option.not_isSome_iff_eq_none, Option.isSome_iff_exists]
    rintro ⟨e, he⟩
    exact hne (hrefused e he).1

lemma publish_checksFirst (c : Client) (topic : String) (body : Bytes)
    (options : List RequestOption) :
    ChecksFirst c (c.publish topic body options).1 topic options
      (c.publish topic body options).2.error? :=
  checksFirst (fun e he => by rw [publish_refused he]; exact ⟨rfl, rfl⟩)
    fun hr _ he => publish_accepted hr (Call.error?_eq_some_iff.mp he)

lemma poll_checksFirst (c : Client) (topic : String) (options : List RequestOption) :
    ChecksFirst c (c.poll topic options).1 topic options (c.poll topic options).2.pollError? := by
  refine checksFirst (fun e he => by rw [poll_refused he]; exact ⟨rfl, rfl⟩) fun hr e he => ?_
  obtain ⟨p, hp, he⟩ := Call.pollError?_eq_some_iff.mp he
  exact poll_accepted hr hp he

lemma subscribe_error_accepted (hr : c.refusal? topic options = none)
    (drawn : List SubscriptionId) (hasRuntime : Bool) :
    (c.subscribe drawn hasRuntime topic options).2.error? =
      if hasRuntime then none else some .noRuntime := by
  rcases subscribe_accepted hr drawn hasRuntime with
    ⟨rfl, hsub⟩ | ⟨rfl, -, hsub⟩ | ⟨url, id, rfl, -, -, hsub⟩
  · rw [hsub]
    rfl
  · rw [hsub]
    rfl
  · rw [hsub]
    rfl

lemma subscribe_checksFirst (c : Client) (drawn : List SubscriptionId) (hasRuntime : Bool)
    (topic : String) (options : List RequestOption) :
    ChecksFirst c (c.subscribe drawn hasRuntime topic options).1 topic options
      (c.subscribe drawn hasRuntime topic options).2.error? := by
  refine checksFirst (fun e he => by rw [subscribe_refused he]; exact ⟨rfl, rfl⟩) fun hr e he => ?_
  rw [subscribe_error_accepted hr] at he
  split at he <;> cases he
  rfl

/-- The runtime is looked at last. -/
lemma subscribe_noRuntime_iff (c : Client) (drawn : List SubscriptionId) (hasRuntime : Bool)
    (topic : String) (options : List RequestOption) :
    (c.subscribe drawn hasRuntime topic options).2.error? = some .noRuntime ↔
      c.Valid topic options ∧ hasRuntime = false := by
  rw [← refusal?_eq_none_iff_valid]
  rcases hr : c.refusal? topic options with _ | e
  · rw [subscribe_error_accepted hr]
    rcases hasRuntime with _ | _ <;> simp
  · have he := isValidation_of_refusal? hr
    rw [subscribe_refused hr]
    simp only [Call.error?, Option.some.injEq, reduceCtorEq, false_and, iff_false]
    rintro rfl
    cases he

/-- Without a runtime nothing is started. -/
lemma subscribe_without_runtime (c : Client) (drawn : List SubscriptionId) (topic : String)
    (options : List RequestOption) : (c.subscribe drawn false topic options).1 = c := by
  rcases hr : c.refusal? topic options with _ | e
  · rcases subscribe_accepted hr drawn false with ⟨-, hsub⟩ | ⟨h, -⟩ | ⟨_, _, h, -⟩
    · rw [hsub]
    · cases h
    · cases h
  · rw [subscribe_refused hr]

end Calls

end Client

/-! ### Loops -/

/-- The topic and the options of a listener were let through. -/
structure Listener.LetThrough (defaultHost : String) (who : Listener) : Prop where
  topic : ∃ topic, Topic.resolve topic defaultHost = .ok who.topicUrl
  options : firstFault? who.options = none

/-- What was let through is not what asking for the feed fails for. -/
lemma Listener.LetThrough.failsFor {defaultHost : String} {who : Listener}
    (h : who.LetThrough defaultHost) : who.FailsFor fun e => e.isValidation = false := by
  intro net e he
  rcases hunsent : e.isUnsent with _ | _
  · exact (Bool.or_eq_false_iff.mp hunsent).1
  · exact request_accepted h.options (openFeed_unsent he hunsent)

namespace Loop

variable {l l' : Loop} {hub hub' : Hub} {move : Move} {τ : List Event}

/-- Only an attempt under way sends a request. -/
lemma Does.requests_of_ne_step (hdoes : Does l hub move τ hub' l') (hmove : move ≠ .step) :
    hub'.network.requests = hub.network.requests := by
  cases hdoes <;> first | rfl | exact absurd rfl hmove

end Loop

namespace Client

open Loop

/-! ### Requests -/

/-- The move asks the network for something: a call does, or an attempt of a loop. -/
inductive Asks (c : Client) : Move → String → List RequestOption → Prop
  | publish (topic : String) (body : Bytes) (options : List RequestOption) :
      Asks c (.publish topic body options) topic options
  | poll (topic : String) (options : List RequestOption) :
      Asks c (.poll topic options) topic options
  | attempt {t : Ticket} {l : Loop} {topic : String} (hl : c.loops[t]? = some l)
      (hurl : c.resolve topic = .ok l.who.topicUrl) : Asks c (.step t) topic l.who.options

/-- The requests that have arrived so far. -/
def requests (c : Client) : List Request := c.hub.network.requests

lemma requests_withLoop {move : Loop.Move} (hmove : move ≠ .step) (c : Client) (t : Ticket) :
    (c.withLoop t fun l hub => l.act hub move).requests = c.requests := by
  unfold withLoop
  split
  · rfl
  · next l _ => exact (act_does l c.hub move).requests_of_ne_step hmove

lemma requests_moveLoops {moves : List (Ticket × Loop.Move)} (hmoves : ∀ x ∈ moves, x.2 ≠ .step)
    (c : Client) : (c.moveLoops moves).requests = c.requests :=
  moveLoops_frame requests (fun x hx c => requests_withLoop (hmoves x hx) c x.1) c

lemma requests_afterTake (c : Client) (taken : Queue.Change Ticket Message × Option Message) :
    (c.afterTake taken).1.requests = c.requests := by
  rw [afterTake_eq]
  refine requests_moveLoops (fun x hx => ?_) _
  obtain ⟨w, -, rfl⟩ := List.mem_map.mp hx
  simp

lemma requests_unsubscribeAll (c : Client) : c.unsubscribeAll.requests = c.requests := by
  rw [unsubscribeAll_eq]
  refine requests_moveLoops (fun x hx => ?_) _
  obtain ⟨s, -, rfl⟩ := List.mem_map.mp hx
  simp

/-- **Requests are sent for what is valid only.** A move that sends one asks for it, at a topic
that has a URL and with options none of which is bad. -/
lemma asks_of_requests {c : Client}
    (hloops : AllLoops (fun _ l => l.who.LetThrough c.settings.defaultHost) c) {m : Move}
    (hsent : (c.act m).1.requests ≠ c.requests) :
    ∃ topic options, c.Asks m topic options ∧ c.Valid topic options := by
  cases m with
  | publish topic body options =>
    refine ⟨topic, options, .publish topic body options, ?_⟩
    exact (publish_checksFirst c topic body options).valid fun h => hsent (congrArg requests h)
  | poll topic options =>
    refine ⟨topic, options, .poll topic options, ?_⟩
    exact (poll_checksFirst c topic options).valid fun h => hsent (congrArg requests h)
  | step t =>
    rcases hl : c.loops[t]? with _ | l
    · exact absurd (by simp [act, step, withLoop, hl]) hsent
    · obtain ⟨⟨topic, hurl⟩, hoptions⟩ := hloops t l hl
      exact ⟨topic, _, .attempt hl hurl, ⟨_, hurl⟩, firstFault?_eq_none_iff.mp hoptions⟩
  | elapse t ms =>
    exact absurd (requests_withLoop (by simp : Loop.Move.elapse ms ≠ .step) c t) hsent
  | subscribe drawn hasRuntime topic options =>
    refine absurd ?_ hsent
    simp only [act]
    rcases subscribe_cases c drawn hasRuntime topic options with
      ⟨hsame, -⟩ | ⟨url, id, -, -, -, hsub⟩
    · rw [hsame]
    · rw [hsub]
      rfl
  | unsubscribe id =>
    refine absurd ?_ hsent
    simp only [act, unsubscribe]
    split
    · rfl
    · next s registry _ =>
      exact requests_withLoop (by simp : Loop.Move.cancel ≠ .step) { c with registry } s.task
  | unsubscribeAll => exact absurd (requests_unsubscribeAll c) hsent
  | tryNext => exact absurd (requests_afterTake c _) hsent
  | next taker => exact absurd (requests_afterTake c _) hsent
  | forgo | receiver | dropReceiver => exact absurd rfl hsent

/-! ### Whole courses -/

/-- The loops that a client starts serve what was let through. -/
lemma letThrough_course (settings : Settings) (network : Network) (moves : List Move) :
    AllLoops (fun _ l => l.who.LetThrough settings.defaultHost)
      (course settings network moves).client := by
  refine allLoops_course (fun t l hub move h => ?_) ?_ network moves
  · rw [act_who]
    exact h
  · rintro c topic options url id rfl hurl hoptions
    exact ⟨⟨topic, hurl⟩, hoptions⟩

/-- **Validation before any effect.** Whether an option is bad, and why, depends on the option
alone. Publishing, polling and following a topic fail with the topic exactly if it has no URL, and
else with the fault of the first bad option exactly if there is one; following a topic then fails
exactly if there is no runtime. All this leaves the client as it was. So whatever happens to a
client: its loops serve valid topics with valid options, a request is sent for such only, and
neither an attempt nor a loop ends with an error of validation. -/
theorem validation :
    (∀ (spec : Request.Spec) (o : RequestOption) (f : OptionFault),
      (spec.apply o).2 = some f ↔ o.fault? = some f) ∧
    (∀ (c : Client) (topic : String) (options : List RequestOption),
      (∀ body, ChecksFirst c (c.publish topic body options).1 topic options
        (c.publish topic body options).2.error?) ∧
      ChecksFirst c (c.poll topic options).1 topic options (c.poll topic options).2.pollError? ∧
      ∀ drawn hasRuntime,
        ChecksFirst c (c.subscribe drawn hasRuntime topic options).1 topic options
          (c.subscribe drawn hasRuntime topic options).2.error? ∧
        ((c.subscribe drawn hasRuntime topic options).2.error? = some .noRuntime ↔
          c.Valid topic options ∧ hasRuntime = false) ∧
        (hasRuntime = false → (c.subscribe drawn hasRuntime topic options).1 = c)) ∧
    ∀ (settings : Settings) (network : Network) (moves : List Move),
      let c := (course settings network moves).client
      (∀ (t : Ticket) (l : Loop), c.loops[t]? = some l →
        ∃ topic, c.resolve topic = .ok l.who.topicUrl ∧ c.Valid topic l.who.options) ∧
      (∀ m, (c.act m).1.hub.network.requests ≠ c.hub.network.requests →
        ∃ topic options, c.Asks m topic options ∧ c.Valid topic options) ∧
      ∀ t, ∀ ev ∈ trace settings network t moves, ∀ e, ev.error? = some e →
        e.isValidation = false := by
  refine ⟨fun _ _ _ => by rw [Request.Spec.apply_snd], fun c topic options => ⟨?_, ?_, ?_⟩, ?_⟩
  · exact fun body => publish_checksFirst c topic body options
  · exact poll_checksFirst c topic options
  · refine fun drawn hasRuntime => ⟨subscribe_checksFirst c drawn hasRuntime topic options,
      subscribe_noRuntime_iff c drawn hasRuntime topic options, ?_⟩
    rintro rfl
    exact subscribe_without_runtime c drawn topic options
  · intro settings network moves c
    have hsettings : c.settings = settings := settings_course settings network moves
    have hloops : AllLoops (fun _ l => l.who.LetThrough c.settings.defaultHost) c := by
      rw [hsettings]
      exact letThrough_course settings network moves
    refine ⟨fun t l hl => ?_, fun m => asks_of_requests hloops, fun t ev hev e he => ?_⟩
    · obtain ⟨⟨topic, hurl⟩, hoptions⟩ := hloops t l hl
      exact ⟨topic, hurl, ⟨_, hurl⟩, firstFault?_eq_none_iff.mp hoptions⟩
    · obtain ⟨l, hub, move, hl, hthrough, hl'⟩ := mem_trace (letThrough_course settings network) hev
      exact error_of_trace (fun e he => (Bool.or_eq_false_iff.mp he).1) hl hthrough.failsFor hev he

/-- Two bad options behind a good one. -/
def twoBad : List RequestOption := [.query "a" "b", .priority "x", .since "y"]

def droppingHost : Network where
  isPresent _ := true
  script := .inOrder []
  beyond := .dropped

theorem validation_first_bad :
    ((new {} droppingHost).subscribe ["0123456789"] true "news" twoBad).2.error? =
      some (.invalidOption (.priority "x")) ∧
    ((new {} droppingHost).subscribe ["0123456789"] true "news" twoBad).1 = new {} droppingHost ∧
    ∃ topic options,
      (course {} droppingHost [.subscribe ["0123456789"] true "news" []]).client.Asks (.step 0)
        topic options ∧
      (course {} droppingHost [.subscribe ["0123456789"] true "news" []]).client.Valid
        topic options := by
  obtain ⟨-, hcalls, hcourse⟩ := validation
  have hchecks := ((hcalls (new {} droppingHost) "news" twoBad).2.2 ["0123456789"] true).1
  have hbad := (hchecks.option_iff (.priority "x")).mpr
    ⟨⟨_, rfl⟩, by decide +kernel⟩
  exact ⟨hbad, hchecks.unchanged _ hbad rfl, (hcourse {} droppingHost _).2.1 (.step 0)
    (by decide +kernel)⟩

end Client

end TopicFeed
