import TopicFeed.Proofs.Sending

/-!
Which authorization a request carries.

An authorization is kept in one of two places, as a header that was written out or as credentials.
Giving credentials forgets the header, and removing the header forgets the credentials; but writing
the header out leaves credentials that were given before in force. Then a request carries both.
-/

namespace TopicFeed

open Request

/-! ### What options say -/

namespace Request

/-- An authorization, written out or given as credentials. -/
inductive Authorization where
  | written (value : String)
  | credentials (c : Credentials)
  deriving DecidableEq, Repr

/-- The header value of an authorization. -/
def Authorization.value? : Authorization → Option String
  | .written value => some value
  | .credentials c => c.value?

/-- The value of an authorization that is written out. -/
def Authorization.written? : Authorization → Option String
  | .written value => some value
  | .credentials _ => none

/-- The name of the header that carries credentials, in any letter case. -/
def Header.isAuthorization (name : String) : Bool :=
  name.toList.map Ascii.lower == authorization.toList

end Request

namespace RequestOption

/-- What an option says about the authorization, if it concerns it: a new one, or none. -/
def authorization? : RequestOption → Option (Option Authorization)
  | .header name value =>
    if Header.isAuthorization name then some (some (.written value)) else none
  | .removeHeader name => if Header.isAuthorization name then some none else none
  | .auth credentials => some (credentials.map .credentials)
  | .query _ _ | .priority _ | .since _ => none

/-- What an option says about credentials, if it concerns them. -/
def credentials? : RequestOption → Option (Option Credentials)
  | .removeHeader name => if Header.isAuthorization name then some none else none
  | .auth credentials => some credentials
  | .header _ _ | .query _ _ | .priority _ | .since _ => none

/-- What the last option gives that is concerned, or nothing at all. -/
def lastGiven {α : Type} (view : RequestOption → Option (Option α)) (options : List RequestOption) :
    Option α :=
  (options.reverse.findSome? view).join

/-- The authorization that the last option gives that concerns it. -/
def lastAuthorization (options : List RequestOption) : Option Authorization :=
  lastGiven authorization? options

/-- The credentials that were given last and not taken back. -/
def credentialsInForce (options : List RequestOption) : Option Credentials :=
  lastGiven credentials? options

lemma lastGiven_concat {α : Type} (view : RequestOption → Option (Option α))
    (options : List RequestOption) (o : RequestOption) :
    lastGiven view (options ++ [o]) = (view o).getD (lastGiven view options) := by
  rw [lastGiven, List.reverse_concat, List.findSome?_cons]
  rcases view o with _ | said <;> rfl

lemma lastAuthorization_concat (options : List RequestOption) (o : RequestOption) :
    lastAuthorization (options ++ [o]) = o.authorization?.getD (lastAuthorization options) :=
  lastGiven_concat authorization? options o

lemma credentialsInForce_concat (options : List RequestOption) (o : RequestOption) :
    credentialsInForce (options ++ [o]) = o.credentials?.getD (credentialsInForce options) :=
  lastGiven_concat credentials? options o

/-- The authorizations that options put into a request, in the order in which they are sent: a
header that is written out, then the credentials in force. -/
def authorizations (options : List RequestOption) : List Authorization :=
  ((lastAuthorization options).filter (·.written?.isSome)).toList ++
    (credentialsInForce options).toList.map .credentials

/-- The header is written out last, while credentials that were given before are in force. -/
def WrittenOver (options : List RequestOption) : Prop :=
  (∃ value, lastAuthorization options = some (.written value)) ∧
    (credentialsInForce options).isSome = true

/-- Credentials are what was given last, unless a header was. -/
lemma lastAuthorization_eq (options : List RequestOption)
    (h : ∀ value, lastAuthorization options ≠ some (.written value)) :
    lastAuthorization options = (credentialsInForce options).map .credentials := by
  -- On the last option: the two views differ at a header only, and that is excluded.
  induction options using List.reverseRecOn with
  | nil => rfl
  | append_singleton options o ih =>
    rw [lastAuthorization_concat] at h ⊢
    rw [credentialsInForce_concat]
    cases o with
    | header name value =>
      by_cases hname : Header.isAuthorization name = true
      · exact absurd (by simp [authorization?, hname]) (h value)
      · simp only [authorization?, hname, credentials?] at h ⊢
        exact ih h
    | removeHeader name =>
      by_cases hname : Header.isAuthorization name = true
      · simp [authorization?, credentials?, hname]
      · simp only [authorization?, hname, credentials?] at h ⊢
        exact ih h
    | auth credentials => rfl
    | query | priority | since => exact ih h

/-- The last option decides, but not over credentials. -/
lemma authorizations_eq {options : List RequestOption} (h : ¬WrittenOver options) :
    authorizations options = (lastAuthorization options).toList := by
  unfold authorizations
  rcases hlast : lastAuthorization options with _ | value | c
  · have hcredentials := lastAuthorization_eq options (by simp [hlast])
    rw [hlast] at hcredentials
    simp [Option.map_eq_none_iff.mp hcredentials.symm]
  · have hcredentials : credentialsInForce options = none :=
      Option.not_isSome_iff_eq_none.mp fun hc => h ⟨⟨value, hlast⟩, hc⟩
    simp [hcredentials, Authorization.written?]
  · have hcredentials := lastAuthorization_eq options (by simp [hlast])
    rw [hlast, eq_comm, Option.map_eq_some_iff] at hcredentials
    obtain ⟨c', hc, hsame⟩ := hcredentials
    simp [hc, hsame, Authorization.written?]

lemma authorizations_writtenOver {options : List RequestOption} (h : WrittenOver options) :
    ∃ value c, lastAuthorization options = some (.written value) ∧
      credentialsInForce options = some c ∧
      authorizations options = [.written value, .credentials c] := by
  obtain ⟨⟨value, hlast⟩, hsome⟩ := h
  obtain ⟨c, hc⟩ := Option.isSome_iff_exists.mp hsome
  exact ⟨value, c, hlast, hc, by rw [authorizations, hlast, hc]; rfl⟩

end RequestOption

namespace Request

open RequestOption

/-! ### What a specification keeps -/

lemma Header.name?_eq_authorization_iff (name : String) :
    Header.name? name = some Header.authorization ↔ Header.isAuthorization name = true := by
  have hname : name? authorization = some authorization := by decide +kernel
  have hlower : authorization.toList.map Ascii.lower = authorization.toList := by decide +kernel
  rw [name?_eq_iff hname, isSame_iff, hlower, isAuthorization, beq_iff_eq, eq_comm]

/-- A specification keeps the authorization of its options in its two places. -/
structure Spec.Authorizes (spec : Spec) (options : List RequestOption) : Prop where
  header : spec.headers.get? Header.authorization =
    (lastAuthorization options).bind Authorization.written?
  credentials : spec.credentials = credentialsInForce options
  nodup : spec.headers.names.Nodup

section Steps

variable {spec next : Spec} {options : List RequestOption} {o : RequestOption}

lemma Spec.Authorizes.concat
    (hheader : next.headers.get? Header.authorization =
      ((authorization? o).getD (lastAuthorization options)).bind Authorization.written?)
    (hcredentials : next.credentials = (credentials? o).getD (credentialsInForce options))
    (hnodup : next.headers.names.Nodup) : next.Authorizes (options ++ [o]) := by
  refine ⟨?_, ?_, hnodup⟩
  · rw [hheader, lastAuthorization_concat]
  · rw [hcredentials, credentialsInForce_concat]

/-- Options that say the same of the authorization count as one. -/
lemma Spec.Authorizes.congr {o' : RequestOption} (h : spec.Authorizes (options ++ [o']))
    (hauth : o.authorization? = o'.authorization?)
    (hcredentials : o.credentials? = o'.credentials?) :
    spec.Authorizes (options ++ [o]) := by
  refine .concat ?_ ?_ h.nodup
  · rw [h.header, lastAuthorization_concat, hauth]
  · rw [h.credentials, credentialsInForce_concat, hcredentials]

lemma Spec.Authorizes.setHeader (h : spec.Authorizes options) {name key value : String}
    (hname : Header.name? name = some key) :
    Spec.Authorizes { spec with headers := spec.headers.set key value }
      (options ++ [.header name value]) := by
  refine .concat ?_ h.credentials (Named.nodup_names_set h.nodup key value)
  have hauth := Header.name?_eq_authorization_iff name
  rw [hname, Option.some.injEq] at hauth
  by_cases hkey : key = Header.authorization
  · simp [authorization?, hauth.mp hkey, hkey, Named.get?_set_self, Authorization.written?]
  · simp [authorization?, mt hauth.mpr hkey, Named.get?_set_of_ne (Ne.symm hkey), h.header]

lemma Spec.Authorizes.removeHeader (h : spec.Authorizes options) (name : String) :
    (spec.removeHeader name).Authorizes (options ++ [.removeHeader name]) := by
  have hauth := Header.name?_eq_authorization_iff name
  unfold Spec.removeHeader
  rcases hname : Header.name? name with _ | key
  · rw [hname] at hauth
    have hother : ¬Header.isAuthorization name = true := by simp [← hauth]
    refine .concat ?_ ?_ h.nodup
    · simp [authorization?, hother, h.header]
    · simp [credentials?, hother, h.credentials]
  · rw [hname, Option.some.injEq] at hauth
    refine .concat ?_ ?_ (Named.nodup_names_erase h.nodup key)
    · by_cases hkey : key = Header.authorization
      · simp [authorization?, hauth.mp hkey, hkey, Named.get?_erase_self]
      · simp [authorization?, mt hauth.mpr hkey, Named.get?_erase_of_ne (Ne.symm hkey), h.header]
    · by_cases hkey : key = Header.authorization
      · simp [credentials?, hauth.mp hkey, hkey]
      · simp [credentials?, mt hauth.mpr hkey, hkey, h.credentials]

/-- **Every option keeps the authorization in its places.** -/
lemma Spec.Authorizes.apply (h : spec.Authorizes options) (ho : spec.apply o = (next, none)) :
    next.Authorizes (options ++ [o]) := by
  cases o with
  | header name value =>
    rcases setHeader_cases spec name value with ⟨f, -, hset⟩ | ⟨key, hname, -, -, hset⟩
    · rw [Spec.apply, hset] at ho
      cases ho
    · rw [Spec.apply, hset] at ho
      cases ho
      exact h.setHeader hname
  | removeHeader name =>
    cases ho
    exact h.removeHeader name
  | query name value =>
    cases ho
    exact .concat h.header h.credentials h.nodup
  | priority level =>
    rw [Spec.apply] at ho
    split at ho
    · rcases setHeader_cases spec "X-Priority" level with ⟨f, -, hset⟩ | ⟨key, hname, -, -, hset⟩
      · rw [hset] at ho
        cases ho
      · rw [hset] at ho
        cases ho
        have hother : Header.isAuthorization "X-Priority" = false := by decide
        exact (h.setHeader hname).congr (by simp [authorization?, hother]) rfl
    · cases ho
  | since start =>
    rw [Spec.apply] at ho
    split at ho <;> cases ho
    exact .concat h.header h.credentials h.nodup
  | auth credentials =>
    rcases credentials with _ | c
    · cases ho
      have hauth : Header.isAuthorization Header.authorization = true := by decide
      exact (h.removeHeader Header.authorization).congr (by simp [authorization?, hauth])
        (by simp [credentials?, hauth])
    · cases ho
      refine .concat ?_ rfl (Named.nodup_names_erase h.nodup Header.authorization)
      exact Named.get?_erase_self _ _

end Steps

lemma Spec.authorizes_of_options {options : List RequestOption} {spec : Spec}
    (h : Spec.ofOptions options = .ok spec) : spec.Authorizes options :=
  Spec.ofOptions_induction (P := fun options spec => spec.Authorizes options)
    ⟨rfl, rfl, List.nodup_nil⟩ (fun _ _ _ _ hspec ho => hspec.apply ho) h

/-! ### What a request carries -/

/-- The values of the authorization headers, in the order in which they are sent. -/
def authorizations (r : Request) : List String :=
  (r.headers.filter (·.1 == Header.authorization)).map (·.2)

lemma Named.filter_name {values : Named} (h : values.names.Nodup) (name : String) :
    (values.filter (·.1 == name)).map (·.2) = (values.get? name).toList := by
  induction values with
  | nil => rfl
  | cons entry rest ih =>
    obtain ⟨hentry, hrest⟩ : entry.1 ∉ Named.names rest ∧ (Named.names rest).Nodup :=
      List.nodup_cons.mp h
    by_cases hname : entry.1 = name
    · have hothers : rest.filter (·.1 == name) = [] := by
        refine List.filter_eq_nil_iff.mpr fun other hother hsame => hentry ?_
        rw [hname, ← beq_iff_eq.mp hsame]
        exact List.mem_map_of_mem hother
      simp [Named.get?, hname, hothers]
    · simpa [Named.get?, hname] using ih hrest

lemma authorizations_headersOf {spec : Spec} (h : spec.headers.names.Nodup)
    (own credentials : Option String) :
    ((headersOf own credentials spec).filter (·.1 == Header.authorization)).map (·.2) =
      (if (spec.headers.get? Header.authorization).isSome then [] else own.toList) ++
        (spec.headers.get? Header.authorization).toList ++ credentials.toList := by
  have hentry : ∀ value : Option String,
      ((value.toList.map fun v => (Header.authorization, v)).filter
        (·.1 == Header.authorization)).map (·.2) = value.toList := by
    rintro (_ | v) <;> rfl
  simp only [headersOf, List.filter_append, List.map_append, Named.filter_name h, hentry]
  split
  · rfl
  · rw [hentry]

/-- **A request carries what its options say,** behind an authorization of its address, which gives
way to a header that is written out. -/
lemma authorizations_onUrl {options : List RequestOption} {spec : Spec}
    (h : spec.Authorizes options) (hfit : spec.Carriable) (method : Method) (url : Url)
    (body : Bytes) :
    (onUrl method url spec body).authorizations.map some =
      (if ((lastAuthorization options).bind Authorization.written?).isSome then []
        else (url.credentials?.bind Credentials.value?).toList.map some) ++
        (RequestOption.authorizations options).map Authorization.value? := by
  have hcredentials : (spec.credentials.bind Credentials.value?).toList.map some =
      (spec.credentials.toList.map Authorization.credentials).map Authorization.value? := by
    rcases hc : spec.credentials with _ | c
    · rfl
    · obtain ⟨value, hvalue⟩ := Option.isSome_iff_exists.mp (hfit c hc)
      simp [hvalue, Authorization.value?]
  have hwritten : ((lastAuthorization options).bind Authorization.written?).toList.map some =
      ((lastAuthorization options).filter (·.written?.isSome)).toList.map Authorization.value? := by
    rcases lastAuthorization options with _ | value | c <;> rfl
  rw [authorizations, onUrl, authorizations_headersOf h.nodup, h.header, List.map_append,
    List.map_append, hcredentials, hwritten, RequestOption.authorizations, List.map_append,
    h.credentials, List.append_assoc]
  congr 1
  split <;> simp

/-- **The last option that concerns the authorization decides,** and there is one at most, unless a
header is written out last while credentials are in force. In that case a request carries both. -/
theorem authorization_decided {options : List RequestOption} {spec : Spec}
    (hoptions : Spec.ofOptions options = .ok spec) {method : Method} {address : String}
    {body : Bytes} {r : Request} (hr : ofSpec method address spec body = .ok r)
    (haddress : ∀ url, Url.ofText? address = some url → url.credentials? = none) :
    (¬WrittenOver options →
      r.authorizations.map some = (lastAuthorization options).toList.map Authorization.value?) ∧
    (∀ value c, lastAuthorization options = some (.written value) →
      credentialsInForce options = some c →
      r.authorizations.map some = [some value, c.value?]) ∧
    (r.authorizations.length ≤ 1 ↔ ¬WrittenOver options) := by
  obtain ⟨url, hurl, -, -, hfit, rfl⟩ := ofSpec_eq_ok_iff.mp hr
  have hcarried : (onUrl method url spec body).authorizations.map some =
      (RequestOption.authorizations options).map Authorization.value? := by
    rw [authorizations_onUrl (Spec.authorizes_of_options hoptions) hfit, haddress url hurl]
    simp
  have hlength := congrArg List.length hcarried
  rw [List.length_map, List.length_map] at hlength
  refine ⟨fun h => ?_, fun value c hlast hc => ?_, ?_⟩
  · rw [hcarried, authorizations_eq h]
  · rw [hcarried, RequestOption.authorizations, hlast, hc]
    rfl
  · rw [hlength]
    constructor
    · rintro hle hover
      obtain ⟨value, c, -, -, hboth⟩ := authorizations_writtenOver hover
      rw [hboth] at hle
      simp at hle
    · intro h
      rw [authorizations_eq h]
      rcases lastAuthorization options with _ | a <;> simp

/-- Credentials, then a header that is written out over them, both taken back, and a token. -/
def tokenAtLast : List RequestOption :=
  [.basicAuth "u" "p", .header "Authorization" "Bearer t", .removeHeader "AUTHORIZATION",
    .bearerAuth "k"]

theorem authorization_of_token : ∃ spec r, Spec.ofOptions tokenAtLast = .ok spec ∧
    ofSpec .post "https://h/t" spec [] = .ok r ∧ r.authorizations.map some = [some "Bearer k"] := by
  obtain ⟨spec, hspec⟩ := Spec.exists_ofOptions
    (by decide +kernel : RequestOption.firstFault? tokenAtLast = none)
  have hbuilt : ((Spec.ofOptions tokenAtLast).toOption.bind fun spec =>
      (ofSpec .post "https://h/t" spec []).toOption).isSome = true := by decide +kernel
  have hanonymous : (Url.ofText? "https://h/t").bind Url.credentials? = none := by decide +kernel
  have hlast : lastAuthorization tokenAtLast = some (.credentials (.token "k")) := by decide +kernel
  rcases hr : ofSpec .post "https://h/t" spec [] with f | r
  · simp [hspec, hr, Except.toOption] at hbuilt
  · have hdecided := authorization_decided hspec hr fun url hurl => by simpa [hurl] using hanonymous
    refine ⟨spec, r, hspec, hr, (hdecided.1 ?_).trans (by rw [hlast]; decide +kernel)⟩
    rintro ⟨⟨value, hvalue⟩, -⟩
    rw [hlast] at hvalue
    cases hvalue

/-- Credentials, and then a header that is written out over them. -/
def tokenOverPassword : List RequestOption :=
  [.basicAuth "u" "p", .header "Authorization" "Bearer t"]

theorem authorization_sent_twice :
    lastAuthorization tokenOverPassword = some (.written "Bearer t") ∧
    ((Spec.ofOptions tokenOverPassword).toOption.bind fun spec =>
      (ofSpec .post "https://h/t" spec []).toOption).map authorizations =
        some ["Bearer t", "Basic dTpw"] := by
  decide +kernel

end Request

end TopicFeed
