import TopicFeed.Client
import TopicFeed.Proofs.Feed
import TopicFeed.Proofs.Sending

/-!
What a call checks before it does anything.

Every call looks at its topic first and then at its options. A call that is refused for one of them
changes nothing, and a call that is not refused fails with no error of this kind any more.
-/

namespace TopicFeed

open Network RequestOption

/-- A topic is refused under its own name. -/
lemma Topic.eq_of_resolve_error {topic defaultHost : String} {e : ClientError}
    (h : resolve topic defaultHost = .error e) : e = .invalidTopic topic := by
  unfold resolve at h
  split at h
  · cases h
  · split at h
    · cases h
    · split at h <;> cases h
      rfl

/-! ### Requests -/

namespace Network

variable {net : Network} {method : Request.Method} {address topicUrl : String}
variable {options : List RequestOption} {body : Bytes} {e : ClientError}

lemma request_refused {f : OptionFault} (h : firstFault? options = some f) :
    net.request method address options body = (net, .error (.invalidOption f)) := by
  rw [request, Request.Spec.ofOptions_eq_error_iff.mpr h]

/-- A request whose options are accepted fails for nothing that is wrong with them. -/
lemma request_accepted (h : firstFault? options = none)
    (he : (net.request method address options body).2 = .error e) : e.isValidation = false := by
  rcases net.request_cases method address options body with
    ⟨f, hf, -⟩ | ⟨-, f, -, -, -, hr⟩ | ⟨-, r, -, -, hr⟩
  · rw [h] at hf
    cases hf
  · rw [hr] at he
    cases he
    rfl
  · exact (Bool.or_eq_false_iff.mp (hr.isUnsent he)).1

lemma openFeed_refused {f : OptionFault} (h : firstFault? options = some f) :
    net.openFeed topicUrl options = (net, .failed (.invalidOption f)) := by
  rw [openFeed, request_refused h]

/-- If nothing was sent, the request is what failed. -/
lemma openFeed_unsent (he : (net.openFeed topicUrl options).2 = .failed e)
    (hunsent : e.isUnsent = true) :
    (net.request .get (feedAddress topicUrl) options []).2 = .error e := by
  unfold openFeed at he
  split at he
  · next net' e' hr =>
    cases he
    rw [hr]
  · split at he
    · cases he
    · split at he <;> cases he <;> cases hunsent

end Network

/-- A feed fails with what is wrong with its bytes. -/
lemma Feed.isUnsent_of_arrival {f : Feed} {t i : String} {e : ClientError}
    (h : f.arrival t i = .failed e) : e.isUnsent = false := by
  unfold arrival at h
  split at h
  · next line rest _ =>
    split at h
    · next e' he =>
      cases h
      unfold event at he
      split at he
      · cases he
        rfl
      · next text _ =>
        rcases hd : Message.decode text t i with f | m
        · rw [hd] at he
          cases he
          rfl
        · rw [hd] at he
          cases he
    · split at h <;> cases h
  all_goals cases h
  rfl

lemma Feed.isUnsent_of_collect {f : Feed} {t i : String} {e : ClientError}
    (h : (f.collect t i).2 = .failed e) : e.isUnsent = false := by
  rcases ha : f.arrival t i with ⟨m, g⟩ | g | _ | e' | _
  · have hlt := size_lt_of_notification ha
    rw [collect_of_notification ha] at h
    exact isUnsent_of_collect h
  · have hlt := size_lt_of_control ha
    rw [collect_of_control ha] at h
    exact isUnsent_of_collect h
  · rw [collect_of_ended ha] at h
    cases h
  · rw [collect_of_failed ha] at h
    cases h
    exact isUnsent_of_arrival ha
  · rw [collect_of_waits ha] at h
    cases h
termination_by f.size

namespace Client

/-- The loop that a client starts next. -/
def newLoop (c : Client) (url : String) (id : SubscriptionId) (options : List RequestOption) :
    Loop where
  who := { topicUrl := url, subscriptionId := id, options, delay := c.settings.delay }
  ticket := c.loops.length

/-- What a call is refused for, if it is: its topic, or else its first bad option. -/
def refusal? (c : Client) (topic : String) (options : List RequestOption) : Option ClientError :=
  match c.resolve topic with
  | .error e => some e
  | .ok _ => (firstFault? options).map .invalidOption

variable {c : Client} {topic : String} {options : List RequestOption} {e : ClientError}

lemma refusal?_eq_none_iff :
    c.refusal? topic options = none ↔
      (∃ url, c.resolve topic = .ok url) ∧ firstFault? options = none := by
  unfold refusal?
  rcases c.resolve topic with e | url <;> simp

lemma refusal?_invalidTopic_iff {t : String} :
    c.refusal? topic options = some (.invalidTopic t) ↔
      t = topic ∧ ∃ e, c.resolve topic = .error e := by
  unfold refusal?
  rcases hurl : c.resolve topic with e | url
  · rw [Topic.eq_of_resolve_error hurl]
    simp [eq_comm]
  · simp

lemma refusal?_invalidOption_iff {f : OptionFault} :
    c.refusal? topic options = some (.invalidOption f) ↔
      (∃ url, c.resolve topic = .ok url) ∧ firstFault? options = some f := by
  unfold refusal?
  rcases hurl : c.resolve topic with e | url
  · rw [Topic.eq_of_resolve_error hurl]
    simp
  · simp

lemma refusal?_cases (h : c.refusal? topic options = some e) :
    (e = .invalidTopic topic ∧ c.resolve topic = .error e) ∨
    ∃ url f, c.resolve topic = .ok url ∧ firstFault? options = some f ∧ e = .invalidOption f := by
  unfold refusal? at h
  split at h
  · next e' hurl =>
    cases h
    exact .inl ⟨Topic.eq_of_resolve_error hurl, hurl⟩
  · next url hurl =>
    obtain ⟨f, hf, rfl⟩ := Option.map_eq_some_iff.mp h
    exact .inr ⟨url, f, hurl, hf, rfl⟩

lemma isValidation_of_refusal? (h : c.refusal? topic options = some e) : e.isValidation = true := by
  rcases refusal?_cases h with ⟨rfl, -⟩ | ⟨url, f, -, -, rfl⟩
  · rfl
  · rfl

/-! ### Calls that are refused -/

lemma publish_refused (h : c.refusal? topic options = some e) (body : Bytes) :
    c.publish topic body options = (c, .returned (.error e)) := by
  rcases refusal?_cases h with ⟨-, hurl⟩ | ⟨url, f, hurl, hf, rfl⟩
  · rw [publish, hurl]
  · rw [publish, hurl]
    simp only [Network.publish, request_refused hf]

lemma poll_refused (h : c.refusal? topic options = some e) :
    c.poll topic options = (c, .returned { error := some e }) := by
  rcases refusal?_cases h with ⟨-, hurl⟩ | ⟨url, f, hurl, hf, rfl⟩
  · rw [poll, hurl]
  · rw [← firstFault?_poll] at hf
    rw [poll, hurl]
    simp only [Network.poll, openFeed_refused hf]

lemma subscribe_refused (h : c.refusal? topic options = some e) (drawn : List SubscriptionId)
    (hasRuntime : Bool) :
    c.subscribe drawn hasRuntime topic options = (c, .returned (.error e)) := by
  rcases refusal?_cases h with ⟨-, hurl⟩ | ⟨url, f, hurl, hf, rfl⟩
  · rw [subscribe, hurl]
  · rw [subscribe, hurl]
    simp only [Request.Spec.ofOptions_eq_error_iff.mpr hf]

/-! ### Calls that are not refused -/

/-- If nothing was published, the request is what failed. -/
lemma publish_unsent {url : String} (hurl : c.resolve topic = .ok url) {body : Bytes}
    (he : (c.publish topic body options).2 = .returned (.error e)) (hunsent : e.isUnsent = true) :
    (c.hub.network.request .post url options body).2 = .error e := by
  rw [publish, hurl] at he
  simp only [Network.publish] at he
  split at he
  · next net' e' hr =>
    cases he
    rw [hr]
  · next net' status answer _ =>
    split at he
    · cases he
    · cases he
      cases hunsent
    · next bytes _ =>
      simp only [Call.returned.injEq] at he
      split at he
      · rcases hd : Message.decode (Utf8.lenient bytes) url "" with f | m
        · rw [hd] at he
          cases he
          cases hunsent
        · rw [hd] at he
          cases he
      · cases he
        cases hunsent

/-- If nothing was asked for, the request is what failed. -/
lemma poll_unsent {url : String} (hurl : c.resolve topic = .ok url) {p : Polled}
    (hp : (c.poll topic options).2 = .returned p) (he : p.error = some e)
    (hunsent : e.isUnsent = true) :
    (c.hub.network.request .get (feedAddress url) (options ++ [.poll]) []).2 = .error e := by
  rw [poll, hurl] at hp
  simp only [Network.poll] at hp
  split at hp
  · next net' e' ho =>
    cases hp
    cases he
    exact openFeed_unsent (congrArg Prod.snd ho) hunsent
  · cases hp
  · split at hp
    · cases hp
      cases he
    · next hc =>
      cases hp
      cases he
      rw [Feed.isUnsent_of_collect (congrArg Prod.snd hc)] at hunsent
      cases hunsent
    · cases hp

lemma publish_accepted (h : c.refusal? topic options = none) {body : Bytes}
    (he : (c.publish topic body options).2 = .returned (.error e)) : e.isValidation = false := by
  obtain ⟨⟨url, hurl⟩, hoptions⟩ := refusal?_eq_none_iff.mp h
  rcases hunsent : e.isUnsent with _ | _
  · exact (Bool.or_eq_false_iff.mp hunsent).1
  · exact request_accepted hoptions (publish_unsent hurl he hunsent)

lemma poll_accepted (h : c.refusal? topic options = none) {p : Polled}
    (hp : (c.poll topic options).2 = .returned p) (he : p.error = some e) :
    e.isValidation = false := by
  obtain ⟨⟨url, hurl⟩, hoptions⟩ := refusal?_eq_none_iff.mp h
  rw [← firstFault?_poll] at hoptions
  rcases hunsent : e.isUnsent with _ | _
  · exact (Bool.or_eq_false_iff.mp hunsent).1
  · exact request_accepted hoptions (poll_unsent hurl hp he hunsent)

/-- A call to follow a topic that is not refused lacks a runtime, or draws on and on, or starts the
next loop under the first id that is free. -/
lemma subscribe_accepted (h : c.refusal? topic options = none) (drawn : List SubscriptionId)
    (hasRuntime : Bool) :
    (hasRuntime = false ∧
      c.subscribe drawn hasRuntime topic options = (c, .returned (.error .noRuntime))) ∨
    (hasRuntime = true ∧ (∀ id ∈ drawn, c.registry.contains id = true) ∧
      c.subscribe drawn hasRuntime topic options = (c, .waiting)) ∨
    ∃ url id, hasRuntime = true ∧ c.resolve topic = .ok url ∧
      drawn.find? (fun id => !c.registry.contains id) = some id ∧
      c.subscribe drawn hasRuntime topic options =
        ({ c with
            registry := ⟨c.registry.live ++ [{ id, topicUrl := url, task := c.loops.length }]⟩
            loops := c.loops ++ [c.newLoop url id options] }, .returned (.ok id)) := by
  obtain ⟨⟨url, hurl⟩, hoptions⟩ := refusal?_eq_none_iff.mp h
  obtain ⟨spec, hspec⟩ := Request.Spec.exists_ofOptions hoptions
  unfold subscribe
  simp only [hurl, hspec]
  rcases hasRuntime with _ | _
  · exact .inl ⟨rfl, rfl⟩
  · right
    rcases hfind : drawn.find? (fun id => !c.registry.contains id) with _ | id
    · refine .inl ⟨rfl, fun id hid => ?_, ?_⟩
      · simpa using List.find?_eq_none.mp hfind id hid
      · simp [Registry.insert?, hfind]
    · exact .inr ⟨url, id, rfl, rfl, rfl, by simp [Registry.insert?, hfind, newLoop]⟩

/-- A call to follow a topic returns no id and changes nothing, or it starts one loop, for what was
let through and under an id that is free. -/
lemma subscribe_cases (c : Client) (drawn : List SubscriptionId) (hasRuntime : Bool)
    (topic : String) (options : List RequestOption) :
    ((c.subscribe drawn hasRuntime topic options).1 = c ∧
      ∀ id, (c.subscribe drawn hasRuntime topic options).2 ≠ .returned (.ok id)) ∨
    ∃ url id, c.resolve topic = .ok url ∧ firstFault? options = none ∧
      drawn.find? (fun id => !c.registry.contains id) = some id ∧
      c.subscribe drawn hasRuntime topic options =
        ({ c with
            registry := ⟨c.registry.live ++ [{ id, topicUrl := url, task := c.loops.length }]⟩
            loops := c.loops ++ [c.newLoop url id options] }, .returned (.ok id)) := by
  rcases hr : c.refusal? topic options with _ | e
  · rcases subscribe_accepted hr drawn hasRuntime with
      ⟨-, hsub⟩ | ⟨-, -, hsub⟩ | ⟨url, id, -, hurl, hfind, hsub⟩
    · exact .inl (by simp [hsub])
    · exact .inl (by simp [hsub])
    · exact .inr ⟨url, id, hurl, (refusal?_eq_none_iff.mp hr).2, hfind, hsub⟩
  · exact .inl (by simp [subscribe_refused hr])

end Client

end TopicFeed
