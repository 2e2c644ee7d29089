import TopicFeed.Command.Run
import TopicFeed.Proofs.Since

/-!
What the settings make of an entry.

The options for an entry give its credentials once and each of its conditions once, since conditions
are kept by key. So the specification that they make can be written down: no header, the
credentials, and behind a start that was asked for the conditions in their order. A condition takes
the place of a start if it has its name.
-/

namespace TopicFeed

open Request RequestOption

/-! ### Many values by name -/

/-- Of the values that were there, those stay that are not given again. -/
lemma Request.Named.foldl_set {pairs : Named} (h : pairs.names.Nodup) (values : Named) :
    pairs.foldl (fun values p => values.set p.1 p.2) values =
      values.filter (fun p => p.1 ∉ pairs.names) ++ pairs := by
  induction pairs generalizing values with
  | nil => simp [names]
  | cons p pairs ih =>
    obtain ⟨hnew, hpairs⟩ : p.1 ∉ names pairs ∧ (names pairs).Nodup := List.nodup_cons.mp h
    have hstays : ∀ q : String × String,
        (q.1 ∉ names (p :: pairs)) ↔ q.1 ≠ p.1 ∧ q.1 ∉ names pairs := by
      simp [names]
    rw [List.foldl_cons, ih hpairs, set, List.filter_append, erase, List.filter_filter]
    simp only [hstays, List.filter_singleton, hnew, not_false_eq_true, decide_true,
      List.append_assoc]
    congr 2
    funext q
    by_cases hq : q.1 = p.1 <;> simp [hq]

lemma Request.Spec.applyAll_filters (spec : Spec) (pairs : List (String × String)) :
    spec.applyAll (pairs.map fun p => .filter p.1 p.2) =
      ({ spec with query := pairs.foldl (fun values p => values.set p.1 p.2) spec.query },
        none) := by
  induction pairs generalizing spec with
  | nil => rfl
  | cons p pairs ih =>
    rw [List.map_cons, RequestOption.filter, applyAll, apply]
    exact ih (spec.setQuery p.1 p.2)

namespace Settings

lemma Conditions.nodup_names (c : Conditions) : (Named.names c.pairs).Nodup := by
  refine List.pairwise_map.mpr (c.sorted.imp fun {a b} hab heq => ?_)
  rw [Before, heq] at hab
  exact String.lt_irrefl _ hab

/-! ### Credentials -/

/-- The entry brings no credentials of its own: no token but an empty one, and no user with a
password. -/
def Entry.Bare (e : Entry) : Prop :=
  (∀ t, e.token = some t → t = "") ∧ (e.user = none ∨ e.password = none)

/-- The credentials for an entry: those of the entry go before those of the settings, and at each of
the two levels a token goes before user and password. -/
inductive Chosen (s : Settings) (e : Entry) : Option Credentials → Prop
  | ownToken {t : String} (ht : e.token = some t) (hsome : t ≠ "") : Chosen s e (some (.token t))
  | ownUser {user password : String} (hnone : ∀ t, e.token = some t → t = "")
      (huser : e.user = some user) (hpassword : e.password = some password) :
      Chosen s e (some (.basic user password))
  | token (hbare : e.Bare) (hsome : s.defaultToken ≠ "") : Chosen s e (some (.token s.defaultToken))
  | user {password : String} (hbare : e.Bare) (hnone : s.defaultToken = "")
      (huser : s.defaultUser ≠ "") (hpassword : s.defaultPassword = some password) :
      Chosen s e (some (.basic s.defaultUser password))
  | nobody (hbare : e.Bare) (hnone : s.defaultToken = "")
      (hlacks : s.defaultUser = "" ∨ s.defaultPassword = none) : Chosen s e none

variable {s : Settings} {e : Entry}

/-- An empty token counts as none. -/
lemma token_unset (h : ∀ t, e.token = some t → t = "") : e.token.filter (· ≠ "") = none := by
  rw [Option.filter_eq_none_iff]
  intro t ht
  simp [h t ht]

lemma credentials_of_bare (h : e.Bare) : e.credentials = none := by
  unfold Entry.credentials
  rw [token_unset h.1]
  rcases h.2 with huser | hpassword
  · rw [huser]
  · rw [hpassword]
    rcases e.user with _ | user <;> rfl

lemma Chosen.credentialsFor {c : Option Credentials} (h : Chosen s e c) :
    s.credentialsFor e = c := by
  unfold Settings.credentialsFor
  cases h with
  | ownToken ht hsome => simp [Entry.credentials, ht, Option.filter, hsome]
  | ownUser hnone huser hpassword =>
    unfold Entry.credentials
    rw [token_unset hnone, huser, hpassword]
    rfl
  | token hbare hsome => simp [credentials_of_bare hbare, defaultCredentials, hsome]
  | user hbare hnone huser hpassword =>
    simp [credentials_of_bare hbare, defaultCredentials, hnone, huser, hpassword]
  | nobody hbare hnone hlacks =>
    rw [credentials_of_bare hbare, defaultCredentials, if_neg (by simpa using hnone)]
    rcases hlacks with huser | hpassword
    · simp [huser]
    · simp [hpassword]

lemma exists_chosen (s : Settings) (e : Entry) : ∃ c, Chosen s e c := by
  by_cases hown : ∃ t, e.token = some t ∧ t ≠ ""
  · obtain ⟨t, ht, hsome⟩ := hown
    exact ⟨_, .ownToken ht hsome⟩
  · have hnone : ∀ t, e.token = some t → t = "" := by
      intro t ht
      by_contra hsome
      exact hown ⟨t, ht, hsome⟩
    by_cases hbare : e.user = none ∨ e.password = none
    · by_cases htoken : s.defaultToken = ""
      · by_cases hlacks : s.defaultUser = "" ∨ s.defaultPassword = none
        · exact ⟨_, .nobody ⟨hnone, hbare⟩ htoken hlacks⟩
        · rw [not_or, ← ne_eq, ← ne_eq, Option.ne_none_iff_exists'] at hlacks
          obtain ⟨huser, password, hpassword⟩ := hlacks
          exact ⟨_, .user ⟨hnone, hbare⟩ htoken huser hpassword⟩
      · exact ⟨_, .token ⟨hnone, hbare⟩ htoken⟩
    · rw [not_or, ← ne_eq, ← ne_eq, Option.ne_none_iff_exists', Option.ne_none_iff_exists'] at hbare
      obtain ⟨⟨user, huser⟩, password, hpassword⟩ := hbare
      exact ⟨_, .ownUser hnone huser hpassword⟩

/-- **The credentials for an entry are those that are chosen,** and no others. -/
theorem credentialsFor_eq_iff {c : Option Credentials} : s.credentialsFor e = c ↔ Chosen s e c := by
  refine ⟨fun h => ?_, Chosen.credentialsFor⟩
  obtain ⟨c', hc'⟩ := exists_chosen s e
  rw [← h, hc'.credentialsFor]
  exact hc'

end Settings

/-! ### The specification -/

namespace Request.Spec

lemma applyAll_credentials (query : Named) (c : Option Credentials) :
    applyAll { query } (c.map RequestOption.credentials).toList =
      ({ query, credentials := c }, none) := by
  rcases c with _ | c <;> rfl

/-- The options for an entry are accepted by every specification that has nothing but a query, and
what they leave of it are the values of other names. -/
lemma applyAll_optionsFor (query : Named) (s : Settings) (e : Settings.Entry) :
    applyAll { query } (s.optionsFor e) =
      ({ query := query.filter (fun p => p.1 ∉ Named.names e.conditions.pairs) ++ e.conditions.pairs
         credentials := s.credentialsFor e }, none) := by
  rw [Settings.optionsFor, applyAll_append, applyAll_credentials]
  dsimp only
  rw [applyAll_filters]
  dsimp only
  rw [Named.foldl_set e.conditions.nodup_names]

end Request.Spec

namespace Command

/-- The options that are given along with a command to follow topics. -/
def startOptions (since : Option String) : List RequestOption := (since.map .since).toList

/-- The switch that gives a start is the only one of the command. -/
lemma optionsOf_subscribe (given : Given) :
    Verb.subscribe.optionsOf given = startOptions (given.value? "since") := by
  unfold Verb.optionsOf Verb.options startOptions
  rcases h : given.value? "since" with _ | v <;> simp [h]

variable {since : Option String}

lemma applyAll_startOptions (hsince : ∀ v ∈ since, IsStart v) (c : Option Credentials) :
    Spec.applyAll { credentials := c } (startOptions since) =
      ({ query := (since.map ("since", ·)).toList, credentials := c }, none) := by
  rcases since with _ | v
  · rfl
  · have hv : Spec.apply { credentials := c } (.since v) =
        (Spec.setQuery { credentials := c } "since" v, none) :=
      Spec.apply_since_iff.mpr ⟨hsince v rfl, rfl⟩
    simp only [startOptions, Option.map_some, Option.toList_some, Spec.applyAll, hv]
    rfl

/-- **What an entry makes along with a start.** The start is there unless a condition has its
name. -/
theorem ofOptions_entryOptions (hsince : ∀ v ∈ since, IsStart v) (s : Settings)
    (e : Settings.Entry) :
    Spec.ofOptions (entryOptions s (startOptions since) e) = .ok
      { query := (since.map ("since", ·)).toList.filter
          (fun p => p.1 ∉ Named.names e.conditions.pairs) ++ e.conditions.pairs
        credentials := s.credentialsFor e } := by
  rw [Spec.ofOptions, entryOptions, Spec.applyAll_append, applyAll_startOptions hsince none]
  dsimp only
  rw [Spec.applyAll_optionsFor]

/-- **What a topic makes that the settings do not list.** -/
theorem ofOptions_topicOptions (hsince : ∀ v ∈ since, IsStart v) (s : Settings) :
    Spec.ofOptions (topicOptions s (startOptions since)) = .ok
      { query := (since.map ("since", ·)).toList, credentials := s.defaultCredentials } := by
  rw [Spec.ofOptions, topicOptions, Spec.applyAll_append, Spec.applyAll_credentials]
  dsimp only
  rw [applyAll_startOptions hsince]

end Command

namespace Settings

open Command

/-- **An entry becomes its request settings.** They are accepted, and hold no header, the
credentials that are chosen for the entry, and its conditions in the order of their keys. User and
password come from one place, and no token is empty. An entry that brings neither credentials nor
conditions is followed as its topic would be if it were named in the command. -/
theorem spec_of_entry (s : Settings) (e : Entry) :
    (∃ spec, Spec.ofOptions (s.optionsFor e) = .ok spec ∧ spec.headers = [] ∧
      spec.credentials = s.credentialsFor e ∧ spec.query = e.conditions.pairs ∧
      spec.query.names.Pairwise (· < ·)) ∧
    (∀ c, s.credentialsFor e = c ↔ Chosen s e c) ∧
    (∀ user password, s.credentialsFor e = some (.basic user password) →
      (e.user = some user ∧ e.password = some password) ∨
        (s.defaultUser = user ∧ s.defaultPassword = some password)) ∧
    s.credentialsFor e ≠ some (.token "") ∧
    (e.Bare → e.conditions = .empty → ∀ since : Option String, (∀ v ∈ since, IsStart v) →
      let given := startOptions since
      (e ∈ s.subscriptions → (e.topic, entryOptions s given e) ∈ followed s [] given) ∧
      followed s [e.topic] given = [(e.topic, topicOptions s given)] ∧
      ∃ spec, Spec.ofOptions (entryOptions s given e) = .ok spec ∧
        Spec.ofOptions (topicOptions s given) = .ok spec) := by
  refine ⟨?_, fun c => credentialsFor_eq_iff, fun user password h => ?_, fun h => ?_,
    fun hbare hnone since hsince => ⟨fun he => ?_, rfl, _, ?_, ofOptions_topicOptions hsince s⟩⟩
  · refine ⟨{ query := e.conditions.pairs, credentials := s.credentialsFor e }, ?_, rfl, rfl, rfl,
      List.pairwise_map.mpr e.conditions.sorted⟩
    rw [Spec.ofOptions, Spec.applyAll_optionsFor []]
    rfl
  · cases credentialsFor_eq_iff.mp h with
    | ownUser hnone huser hpassword => exact .inl ⟨huser, hpassword⟩
    | user hbare hnone huser hpassword => exact .inr ⟨rfl, hpassword⟩
  · generalize hempty : "" = t at h
    cases credentialsFor_eq_iff.mp h with
    | ownToken ht hsome => exact hsome hempty.symm
    | token hbare hsome => exact hsome hempty.symm
  · exact List.mem_map_of_mem he
  · have hcredentials : s.credentialsFor e = s.defaultCredentials := by
      rw [Settings.credentialsFor, credentials_of_bare hbare, Option.none_or]
    rw [ofOptions_entryOptions hsince, hcredentials, hnone]
    simp [Conditions.empty, Named.names]

/-- An entry with a user whose password is missing is followed with the user and the password of the
settings, whichever way it is asked for. -/
theorem spec_of_entry_without_password :
    let e : Entry := { topic := "alerts", user := some "ann" }
    let s : Settings := { defaultUser := "bob", defaultPassword := some "secret" }
    s.credentialsFor e = some (.basic "bob" "secret") ∧
    ∃ spec, Spec.ofOptions (entryOptions s [.since "10m"] e) = .ok spec ∧
      Spec.ofOptions (topicOptions s [.since "10m"]) = .ok spec := by
  intro e s
  obtain ⟨-, hchosen, -, -, hsame⟩ := spec_of_entry s e
  have hbare : e.Bare := by
    refine ⟨fun t ht => ?_, .inr rfl⟩
    cases ht
  refine ⟨(hchosen _).mpr (.user hbare rfl (by decide) rfl), ?_⟩
  have hstart : ∀ v ∈ some "10m", IsStart v := by
    rintro _ ⟨⟩
    exact isSince_iff.mp (by decide)
  exact (hsame hbare rfl (some "10m") hstart).2.2

end Settings

end TopicFeed
