import TopicFeed.Exchange
import TopicFeed.Proofs.Options

/-!
What becomes of a request on its way to the network.

The options are looked at first, then the request is built, and only then is it sent. Building can
fail for two reasons: the address is not one that requests can be sent to, or the credentials fit
into no header.
-/

namespace TopicFeed

open Network

/-- The fault was found before anything was sent: the request could not be built. -/
def TransportFault.isBuild : TransportFault → Bool
  | .unbuildable | .scheme _ => true
  | .unanswered _ | .brokenBody => false

/-- The request could not be built. -/
def ClientError.isBuild : ClientError → Bool
  | .transport f => f.isBuild
  | _ => false

/-- The error was found before anything was sent. -/
def ClientError.isUnsent (e : ClientError) : Bool := e.isValidation || e.isBuild

namespace Request

/-- An address that requests can be sent to. -/
def Askable (address : String) : Prop :=
  ∃ url, Url.ofText? address = some url ∧ url.hasHost = true ∧ isSendable url = true

lemma askable_iff (address : String) : Askable address ↔
    (Url.ofText? address).any (fun url => url.hasHost && isSendable url) = true := by
  unfold Askable
  rcases Url.ofText? address with _ | url <;> simp

instance (address : String) : Decidable (Askable address) :=
  decidable_of_iff' _ (askable_iff address)

/-- The credentials, if there are any, fit into a header. -/
def Spec.Carriable (spec : Spec) : Prop := ∀ c ∈ spec.credentials, c.value?.isSome = true

/-- The request that a specification makes for a URL. -/
def onUrl (method : Method) (url : Url) (spec : Spec) (body : Bytes) : Request where
  method := method
  url := (if url.credentials?.isSome then url.withoutUser else url).addPairs spec.query
  headers := headersOf (url.credentials?.bind Credentials.value?)
    (spec.credentials.bind Credentials.value?) spec
  body := body

variable {method : Method} {address : String} {spec : Spec} {body : Bytes} {r : Request}

@[simp] lemma scheme_addPairs (url : Url) (pairs : List (String × String)) :
    (url.addPairs pairs).scheme = url.scheme := by
  unfold Url.addPairs
  split <;> rfl

lemma isSendable_onUrl (method : Method) (url : Url) (spec : Spec) (body : Bytes) :
    isSendable (onUrl method url spec body).url = isSendable url := by
  have hscheme : (onUrl method url spec body).url.scheme = url.scheme := by
    rw [onUrl, scheme_addPairs]
    split <;> rfl
  rw [isSendable, hscheme, isSendable]

/-- Building a request, in the order of its checks. -/
lemma ofSpec_eq (method : Method) (address : String) (spec : Spec) (body : Bytes) :
    ofSpec method address spec body =
      match Url.ofText? address with
      | none => .error .unbuildable
      | some url =>
        if url.hasHost = false then .error (.scheme url.toText)
        else if spec.credentials.all (·.value?.isSome) = false then .error .unbuildable
        else if isSendable url then .ok (onUrl method url spec body)
        else .error (.scheme (onUrl method url spec body).url.toText) := by
  unfold ofSpec
  rcases Url.ofText? address with _ | url
  · rfl
  · have hsend := isSendable_onUrl method url spec body
    rcases hhost : url.hasHost with _ | _
    · simp [hhost]
    · unfold onUrl at hsend ⊢
      rcases spec.credentials with _ | c
      · simp [hhost, hsend]
      · rcases hvalue : c.value? with _ | v <;> simp [hhost, hsend, hvalue]

/-- **A request can be built** for an address that requests can be sent to, if the credentials fit
into a header. -/
theorem ofSpec_eq_ok_iff : ofSpec method address spec body = .ok r ↔
    ∃ url, Url.ofText? address = some url ∧ url.hasHost = true ∧ isSendable url = true ∧
      spec.Carriable ∧ onUrl method url spec body = r := by
  have hfit : spec.Carriable ↔ spec.credentials.all (·.value?.isSome) = true := by
    unfold Spec.Carriable
    rcases spec.credentials with _ | c <;> simp
  rw [ofSpec_eq, hfit]
  rcases Url.ofText? address with _ | url
  · simp
  · rcases hhost : url.hasHost with _ | _
    · simp [hhost]
    · rcases hall : spec.credentials.all (·.value?.isSome) with _ | _
      · simp [hhost, hall]
      · rcases hsend : isSendable url with _ | _ <;> simp [hhost, hall, hsend]

lemma exists_ofSpec_iff (method : Method) (body : Bytes) :
    (∃ r, ofSpec method address spec body = .ok r) ↔ Askable address ∧ spec.Carriable := by
  constructor
  · rintro ⟨r, hr⟩
    obtain ⟨url, hurl, hhost, hsend, hfit, -⟩ := ofSpec_eq_ok_iff.mp hr
    exact ⟨⟨url, hurl, hhost, hsend⟩, hfit⟩
  · rintro ⟨⟨url, hurl, hhost, hsend⟩, hfit⟩
    exact ⟨_, ofSpec_eq_ok_iff.mpr ⟨url, hurl, hhost, hsend, hfit, rfl⟩⟩

lemma isBuild_of_ofSpec {f : TransportFault} (h : ofSpec method address spec body = .error f) :
    f.isBuild = true := by
  rw [ofSpec_eq] at h
  split at h
  · cases h
    rfl
  · split at h
    · cases h
      rfl
    · split at h
      · cases h
        rfl
      · split at h <;> cases h
        rfl

end Request

namespace Network

variable {net : Network} {method : Request.Method} {address : String}
variable {options : List RequestOption} {body : Bytes}

/-! ### Sending -/

lemma isBuild_of_send {r : Request} {f : TransportFault} (h : (net.send r).2 = .error f) :
    f.isBuild = false := by
  unfold send at h
  split at h
  · cases h
    rfl
  · simp only at h
    split at h <;> cases h
    rfl

/-- The request is sent, and the network has the last word. -/
def Sends (net : Network) (method : Request.Method) (address : String)
    (options : List RequestOption) (body : Bytes) (r : Request) : Prop :=
  net.request method address options body = ((net.send r).1, (net.send r).2.mapError .transport)

/-- What fails on the way was sent. -/
lemma Sends.isUnsent {r : Request} (h : net.Sends method address options body r) {e : ClientError}
    (he : (net.request method address options body).2 = .error e) : e.isUnsent = false := by
  rw [h] at he
  rcases hs : (net.send r).2 with f | answer
  · rw [hs] at he
    cases he
    simp [ClientError.isUnsent, ClientError.isValidation, ClientError.isBuild, isBuild_of_send hs]
  · rw [hs] at he
    cases he

/-- **What becomes of a request:** a bad option stops it, or it cannot be built, or it is sent. -/
theorem request_cases (net : Network) (method : Request.Method) (address : String)
    (options : List RequestOption) (body : Bytes) :
    (∃ f, RequestOption.firstFault? options = some f ∧
      net.request method address options body = (net, .error (.invalidOption f))) ∨
    (∃ spec f, Request.Spec.ofOptions options = .ok spec ∧
      Request.ofSpec method address spec body = .error f ∧ f.isBuild = true ∧
      net.request method address options body = (net, .error (.transport f))) ∨
    ∃ spec r, Request.Spec.ofOptions options = .ok spec ∧
      Request.ofSpec method address spec body = .ok r ∧
      net.Sends method address options body r := by
  unfold Sends request
  rcases ho : Request.Spec.ofOptions options with f | spec
  · exact .inl ⟨f, Request.Spec.ofOptions_eq_error_iff.mp ho, rfl⟩
  · rcases hr : Request.ofSpec method address spec body with f | r
    · exact .inr (.inl ⟨spec, f, rfl, hr, Request.isBuild_of_ofSpec hr, by simp [hr]⟩)
    · exact .inr (.inr ⟨spec, r, rfl, hr, by simp [hr]⟩)

end Network

end TopicFeed
