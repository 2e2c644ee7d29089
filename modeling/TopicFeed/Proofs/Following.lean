import TopicFeed.Proofs.Arguments
import TopicFeed.Proofs.Entries
import TopicFeed.Proofs.Query
import TopicFeed.Proofs.Reconnect

/-!
From where on the topics of the settings are followed.

All requests of a loop are made of its options, so what is asked of the server can be read off the
options that the command puts together: the start that was given, the credentials of the entry and
its conditions. The start is checked, and a condition is not. The address of a feed may bring
parameters of its own, which stand before all others.
-/

namespace TopicFeed

open Network Request RequestOption

/-! ### Parameters -/

namespace Url

namespace Form

lemma decode_and (s t : String) : decode (s ++ "&" ++ t) = decode s ++ decode t := by
  have hbytes : Bytes.ofString (s ++ "&" ++ t) =
      Bytes.ofString s ++ ampersand :: Bytes.ofString t := by
    have hsign : String.utf8EncodeChar '&' = [ampersand] := by decide
    have hone : "&".toList = ['&'] := rfl
    simp only [Utf8.ofString_eq, String.toList_append, Utf8.encode, List.flatMap_append, hone,
      List.flatMap_cons, hsign, List.append_assoc, List.singleton_append]
  rw [decode, hbytes, split_append, List.filter_append, List.map_append]
  rfl

end Form

/-- The values that the query of a URL gives a parameter, in their order. -/
def valuesOf (u : Url) (name : String) : List String :=
  ((Form.decode (u.query.getD "")).filter (·.1 == name)).map (·.2)

lemma decode_addPairs (u : Url) (pairs : List (String × String)) :
    Form.decode ((u.addPairs pairs).query.getD "") = Form.decode (u.query.getD "") ++ pairs := by
  unfold addPairs
  rcases pairs with _ | ⟨p, pairs⟩
  · simp
  · rw [if_neg (by simp)]
    dsimp only
    split
    · next hquery =>
      rw [hquery]
      exact Form.decode_encode (p :: pairs)
    · next hquery =>
      rw [hquery]
      exact Form.decode_encode (p :: pairs)
    · next q _ hquery =>
      rw [hquery, Option.getD_some, Option.getD_some, Form.decode_and, Form.decode_encode]

end Url

/-- **The parameters of a request** are those of its address, and behind them those of its
options. -/
lemma Network.Builds.valuesOf {method : Method} {address : String} {options : List RequestOption}
    {body : Bytes} {r : Request} (h : Builds method address options body r) {spec : Spec}
    (hspec : Spec.ofOptions options = .ok spec) (hnames : spec.query.names.Nodup) (name : String) :
    ∃ own, Url.ofText? address = some own ∧
      r.url.valuesOf name = own.valuesOf name ++ (spec.query? name).toList := by
  obtain ⟨spec', hspec', hr⟩ := h
  cases hspec.symm.trans hspec'
  obtain ⟨url, hurl, -, -, -, rfl⟩ := ofSpec_eq_ok_iff.mp hr
  refine ⟨url, hurl, ?_⟩
  have hbare : (if url.credentials?.isSome then url.withoutUser else url).query = url.query := by
    split <;> rfl
  rw [Url.valuesOf, onUrl, Url.decode_addPairs, hbare, List.filter_append, List.map_append,
    Named.filter_name hnames]
  rfl

lemma Request.Named.get?_eq_none_iff {name : String} {values : Named} :
    values.get? name = none ↔ name ∉ values.names := by
  simp only [get?, names, Option.map_eq_none_iff, List.find?_eq_none, beq_iff_eq, List.mem_map,
    not_exists, not_and]

lemma Request.Named.mem_of_get? {name value : String} {values : Named}
    (h : values.get? name = some value) : (name, value) ∈ values := by
  obtain ⟨p, hp, rfl⟩ := Option.map_eq_some_iff.mp h
  have hname : p.1 = name := by simpa using List.find?_some hp
  exact hname ▸ List.mem_of_find?_eq_some hp

/-! ### Requests of a loop -/

lemma Network.openFeed_builds (net : Network) (url : String) (options : List RequestOption) :
    ∃ sent : List Request, (net.openFeed url options).1.requests = net.requests ++ sent ∧
      ∀ r ∈ sent, Builds .get (feedAddress url) options [] r := by
  rcases net.request_cases .get (feedAddress url) options [] with
    ⟨f, -, hr⟩ | ⟨spec, f, -, -, -, hr⟩ | ⟨spec, r, hspec, hr, hsends⟩
  · exact ⟨[], by simp [openFeed, hr], by simp⟩
  · exact ⟨[], by simp [openFeed, hr], by simp⟩
  · rw [openFeed_sends hsends, send]
    split
    · exact ⟨[], by simp, by simp⟩
    · refine ⟨[r], ?_, List.forall_mem_singleton.mpr ⟨spec, hspec, hr⟩⟩
      dsimp only
      split <;> rfl

namespace Loop

/-- A loop sends what its options make, and nothing else. -/
lemma Does.builds {l l' : Loop} {hub hub' : Hub} {move : Move} {τ : List Event}
    (hdoes : Does l hub move τ hub' l') :
    ∃ sent : List Request, hub'.network.requests = hub.network.requests ++ sent ∧
      ∀ r ∈ sent, Builds .get (feedAddress l.who.topicUrl) l.who.options [] r := by
  cases hdoes with
  | asked hc hp => exact openFeed_builds hub.network l.who.topicUrl l.who.options
  | _ => exact ⟨[], by simp [note, leave, Hub.accept], by simp⟩

/-- **All requests in the life of a listener are made of its options.** -/
theorem life_builds (who : Listener) (ticket : Ticket) (moves : List (Hub × Move)) :
    ∀ r ∈ (life who ticket moves).sent,
      Builds .get (feedAddress who.topicUrl) who.options [] r := by
  induction moves using List.reverseRecOn with
  | nil => exact fun r hr => nomatch hr
  | append_singleton moves m ih =>
    obtain ⟨sent, hsent, hbuilds⟩ := (act_does (life who ticket moves).loop m.1 m.2).builds
    rw [life_who] at hbuilds
    intro r hr
    simp only [life_concat, Life.move, hsent, List.drop_left, List.mem_append] at hr
    rcases hr with hr | hr
    · exact ih r hr
    · exact hbuilds r hr

end Loop

/-! ### Following many topics -/

namespace Client

/-- Every loop that is started follows one of the topics, with the options that it came with. -/
lemma listeners_follow (drawn : List SubscriptionId) (c : Client)
    (feeds : List (String × List RequestOption)) :
    ∀ who ∈ (c.follow drawn feeds).1.listeners, who ∈ c.listeners ∨
      ∃ p ∈ feeds, c.resolve p.1 = .ok who.topicUrl ∧ who.options = p.2 := by
  induction feeds generalizing c with
  | nil => exact fun who hwho => .inl hwho
  | cons p feeds ih =>
    obtain ⟨topic, options⟩ := p
    intro who hwho
    rw [follow] at hwho
    rcases c.subscribe_cases drawn true topic options with
      ⟨hsame, hnone⟩ | ⟨url, id, hurl, -, -, hsub⟩
    · rcases hsub : c.subscribe drawn true topic options with ⟨c', (e | id) | _⟩
      · rw [hsub] at hwho hsame
        exact .inl (hsame ▸ hwho)
      · exact absurd (congrArg Prod.snd hsub) (hnone id)
      · rw [hsub] at hwho hsame
        exact .inl (hsame ▸ hwho)
    · rw [hsub] at hwho
      rcases ih _ who hwho with hold | ⟨p, hp, hresolve, hoptions⟩
      · rw [listeners, List.map_append, List.mem_append] at hold
        rcases hold with hold | hnew
        · exact .inl hold
        · obtain rfl := List.mem_singleton.mp hnew
          exact .inr ⟨_, List.mem_cons_self, hurl, rfl⟩
      · exact .inr ⟨p, List.mem_cons_of_mem _ hp, hresolve, hoptions⟩

end Client

/-! ### Arguments -/

namespace Command

/-- What is not a switch any more is left as it is. -/
lemma eq_append_of_readSwitches {grammar : Grammar} {g g' : Given} {args rest : List String}
    (h : grammar.readSwitches g args = .ok (g', rest)) : ∃ before, args = before ++ rest := by
  induction args generalizing g with
  | nil =>
    simp only [Grammar.readSwitches, bind, Except.bind] at h
    split at h <;> cases h
    exact ⟨[], rfl⟩
  | cons arg args ih =>
    simp only [Grammar.readSwitches, bind, Except.bind] at h
    split at h
    · cases h
    · split at h
      · obtain ⟨before, rfl⟩ := ih h
        exact ⟨arg :: before, rfl⟩
      · cases h
        exact ⟨[], rfl⟩

/-- What the arguments ask for is what a command makes of what stands behind its name. -/
lemma read_of_ofArgs {args : List String} {i : Invocation} (h : Invocation.ofArgs args = .ok i) :
    ∃ before name rest verb given, args = before ++ name :: rest ∧
      Verb.table.lookup name = some verb ∧ verb.grammar.read rest = .ok given ∧
      verb.command? given = some i.command := by
  -- every way out but the last one is a stop
  simp only [Invocation.ofArgs, bind, Except.bind] at h
  split at h
  · cases h
  next outer houter =>
    obtain ⟨before, hargs⟩ := eq_append_of_readSwitches houter
    split at h
    · cases h
    next name rest hrest =>
      split at h
      · cases h
      split at h
      · cases h
      split at h
      · cases h
      next verb hverb =>
        split at h
        · cases h
        next given hgiven =>
          split at h <;> cases h
          next hcommand =>
            exact ⟨before, name, rest, verb, given, hrest ▸ hargs, hverb, hgiven, hcommand⟩

lemma eq_of_command? {verb : Verb} {given : Given} {topics : List String}
    {options : List RequestOption} (h : verb.command? given = some (.subscribe topics options)) :
    verb = .subscribe ∧ given.operands = topics ∧ verb.optionsOf given = options := by
  unfold Verb.command? at h
  dsimp only at h
  split at h <;> simp_all

lemma named_since : Verb.subscribe.grammar.Named "since" where
  value := ⟨{ name := "since" }, rfl, rfl⟩
  alone := by decide
  plain := by decide
  nonempty := by decide

/-- **A command to follow the topics of the settings comes with the start that is given behind its
name,** or without one, and with nothing else. -/
lemma startOptions_of_ofArgs {args : List String} {file : Option String}
    {options : List RequestOption}
    (h : Invocation.ofArgs args = .ok ⟨file, .subscribe [] options⟩) :
    ∃ before rest start, args = before ++ "subscribe" :: rest ∧ options = startOptions start ∧
      ∀ v, start = some v ↔ Gives "since" v rest := by
  obtain ⟨before, name, rest, verb, given, rfl, hverb, hread, hcommand⟩ := read_of_ofArgs h
  obtain ⟨rfl, hoperands, rfl⟩ := eq_of_command? hcommand
  have hname : name = "subscribe" := by
    obtain ⟨xs, ys, htable, -⟩ := List.lookup_eq_some_iff.mp hverb
    have hmem : (name, Verb.subscribe) ∈ Verb.table := htable ▸ List.mem_append_cons_self
    simpa [Verb.table] using hmem
  exact ⟨before, rest, given.value? "since", by rw [hname], optionsOf_subscribe given,
    value?_of_read named_since hread hoperands⟩

/-- What stands behind the name of the command is read by its grammar. -/
lemma ofArgs_subscribe {rest : List String} {given : Given}
    (h : Verb.subscribe.grammar.read rest = .ok given) (hoperands : given.operands = [])
    (hfile : given.value? settingsSwitch.name = none) :
    Invocation.ofArgs ("subscribe" :: rest) =
      .ok ⟨none, .subscribe [] (startOptions (given.value? "since"))⟩ := by
  have houter : outerGrammar.readSwitches {} ("subscribe" :: rest) =
      .ok ({}, "subscribe" :: rest) := rfl
  unfold Invocation.ofArgs
  rw [houter]
  show (do
    let inner ← Verb.subscribe.grammar.read rest
    _) = _
  rw [h, ← optionsOf_subscribe]
  simp [bind, Except.bind, hoperands, hfile]
  rfl

/-- Every text can be given as a start behind an equals sign. -/
lemma ofArgs_inline (v : String) : Invocation.ofArgs ["subscribe", "--since=" ++ v] =
    .ok ⟨none, .subscribe [] (startOptions (some v))⟩ := by
  have harg : ("--since=" ++ v).toList =
      '-' :: '-' :: 's' :: 'i' :: 'n' :: 'c' :: 'e' :: '=' :: v.toList := by
    rw [String.toList_append]
    rfl
  have hread : Verb.subscribe.grammar.read ["--since=" ++ v] =
      .ok { switches := [("since", v)] } := by
    rw [Grammar.read, List.foldlM_cons, Given.step, harg]
    simp [Given.name, Verb.grammar, Verb.options, Given.put, Given.value?]
    rfl
  exact ofArgs_subscribe hread rfl rfl

/-- A text can be given as a start in the next argument, unless it looks like a switch. -/
lemma ofArgs_next {v : String} (hv : v.toList.head? ≠ some '-') :
    Invocation.ofArgs ["subscribe", "--since", v] =
      .ok ⟨none, .subscribe [] (startOptions (some v))⟩ := by
  have hname : Given.step Verb.subscribe.grammar {} "--since" =
      .ok { awaiting := some "since" } := rfl
  have hvalue : Given.step Verb.subscribe.grammar { awaiting := some "since" } v =
      .ok { switches := [("since", v)] } := by
    rw [Given.step, if_neg (by decide)]
    split
    · simp_all
    · simp_all
    · rfl
  have hread : Verb.subscribe.grammar.read ["--since", v] =
      .ok { switches := [("since", v)] } := by
    simp only [Grammar.read, List.foldlM_cons, hname, hvalue, bind, Except.bind]
    rfl
  exact ofArgs_subscribe hread rfl rfl

/-! ### Starts -/

section Start

variable {s : Settings} {since : Option String} {e : Settings.Entry} {spec : Spec}

/-- What the settings say of an entry is never refused, so the start is what is looked at. -/
lemma firstFault?_entryOptions : firstFault? (entryOptions s (startOptions since) e) =
    since.bind fun v => (RequestOption.since v).fault? := by
  have hown : firstFault? (s.optionsFor e) = none := by
    rw [firstFault?_eq_none_iff]
    intro o ho
    rcases List.mem_append.mp ho with hcredentials | hcondition
    · obtain ⟨c, -, rfl⟩ := Option.map_eq_some_iff.mp (Option.mem_toList.mp hcredentials)
      rfl
    · obtain ⟨p, -, rfl⟩ := List.mem_map.mp hcondition
      rfl
  have happend : firstFault? (entryOptions s (startOptions since) e) =
      (firstFault? (startOptions since)).or (firstFault? (s.optionsFor e)) := by
    rw [entryOptions, firstFault?, List.findSome?_append]
    rfl
  rw [happend, hown, Option.or_none]
  rcases since with _ | v <;> simp [startOptions, firstFault?]

lemma fault?_since_eq_none_iff {v : String} :
    (RequestOption.since v).fault? = none ↔ IsStart v := by
  rw [← isSince_iff, fault?]
  split <;> simp_all

lemma isStart_of_ofOptions (h : Spec.ofOptions (entryOptions s (startOptions since) e) = .ok spec) :
    ∀ v ∈ since, IsStart v := by
  intro v hv
  have hnone := Spec.firstFault?_of_ofOptions h
  rw [firstFault?_entryOptions, Option.mem_def.mp hv] at hnone
  exact fault?_since_eq_none_iff.mp hnone

/-- The start is the value of its parameter, unless a condition of the entry has its name. -/
lemma query?_since (h : Spec.ofOptions (entryOptions s (startOptions since) e) = .ok spec) :
    spec.query.names.Nodup ∧
      spec.query? "since" = (Named.get? "since" e.conditions.pairs).or since := by
  cases (ofOptions_entryOptions (isStart_of_ofOptions h) s e).symm.trans h
  have hnodup := e.conditions.nodup_names
  rcases since with _ | v
  · exact ⟨hnodup, (Option.or_none).symm⟩
  · by_cases hname : "since" ∈ Named.names e.conditions.pairs
    · obtain ⟨x, hx⟩ :=
        Option.ne_none_iff_exists'.mp (mt Named.get?_eq_none_iff.mp (not_not.mpr hname))
      simp only [Option.map_some, Option.toList_some, List.filter_singleton, hname, Spec.query?]
      exact ⟨hnodup, by simp [hx]⟩
    · have hnone := Named.get?_eq_none_iff.mpr hname
      simp only [Option.map_some, Option.toList_some, List.filter_singleton, hname, Spec.query?]
      refine ⟨List.nodup_cons.mpr ⟨hname, hnodup⟩, ?_⟩
      rw [hnone]
      simp [Named.get?]

end Start

/-- The listener follows an entry of the settings, with a start or without one. -/
structure Follows (c : Client) (since : Option String) (e : Settings.Entry) (who : Listener) :
    Prop where
  topic : c.resolve e.topic = .ok who.topicUrl
  options : who.options = entryOptions c.settings (startOptions since) e

/-- What a request of such a listener says of the start. Behind the values that its address brings
there is the one of the condition that has its name, or else the one that was given; a start that
was given is one. So a value that is sent is brought by the address, or is a start, or is such a
condition. -/
structure Starts (since : Option String) (e : Settings.Entry) (own : Url) (r : Request) : Prop where
  given : ∀ v ∈ since, IsStart v
  values : r.url.valuesOf "since" = own.valuesOf "since" ++
    ((Named.get? "since" e.conditions.pairs).or since).toList
  sent : ∀ x ∈ r.url.valuesOf "since",
    x ∈ own.valuesOf "since" ∨ IsStart x ∨ ("since", x) ∈ e.conditions.pairs

lemma Follows.starts {c : Client} {since : Option String} {e : Settings.Entry} {who : Listener}
    (h : Follows c since e who) {r : Request}
    (hr : Builds .get (feedAddress who.topicUrl) who.options [] r) :
    ∃ own, Url.ofText? (feedAddress who.topicUrl) = some own ∧ Starts since e own r := by
  rw [h.options] at hr
  obtain ⟨spec, hspec, -⟩ := id hr
  obtain ⟨hnames, hquery⟩ := query?_since hspec
  obtain ⟨own, hown, hvalues⟩ := hr.valuesOf hspec hnames "since"
  have hstart := isStart_of_ofOptions hspec
  rw [hquery] at hvalues
  refine ⟨own, hown, hstart, hvalues, fun x hx => ?_⟩
  rw [hvalues] at hx
  rcases List.mem_append.mp hx with hx | hx
  · exact .inl hx
  · right
    rcases Option.or_eq_some_iff.mp (Option.mem_toList.mp hx) with hcondition | ⟨-, hgiven⟩
    · exact .inr (Named.mem_of_get? hcondition)
    · exact .inl (hstart x hgiven)

/-- **From where on the topics of the settings are followed.** A command without topics comes with
the start that its arguments give behind its name, if they give one, and every text can be given.
What is no start is refused under its name, for every entry whose topic has a URL, and nothing is
started. The loops that are started follow entries of the settings, and whatever happens to them,
their requests say of the start what was given, unless a condition has its name; an address brings
nothing of its own if the URL of the topic has no question mark. -/
theorem since_of_followed (c : Client) (since : Option String) :
    (∀ args file given, Invocation.ofArgs args = .ok ⟨file, .subscribe [] given⟩ →
      ∃ before rest start, args = before ++ "subscribe" :: rest ∧ given = startOptions start ∧
        ∀ v, start = some v ↔ Gives "since" v rest) ∧
    (∀ v, Invocation.ofArgs ["subscribe", "--since=" ++ v] =
        .ok ⟨none, .subscribe [] (startOptions (some v))⟩ ∧
      (v.toList.head? ≠ some '-' → Invocation.ofArgs ["subscribe", "--since", v] =
        .ok ⟨none, .subscribe [] (startOptions (some v))⟩)) ∧
    (∀ v ∈ since, ¬IsStart v → ∀ (e : Settings.Entry) (url : String),
      c.resolve e.topic = .ok url → ∀ drawn hasRuntime,
        c.subscribe drawn hasRuntime e.topic (entryOptions c.settings (startOptions since) e) =
          (c, .returned (.error (.invalidOption (.since v))))) ∧
    (∀ drawn, ∀ who ∈ (c.follow drawn (followed c.settings [] (startOptions since))).1.listeners,
      who ∈ c.listeners ∨ ∃ e ∈ c.settings.subscriptions, Follows c since e who) ∧
    ∀ (e : Settings.Entry) (who : Listener), Follows c since e who →
      ∀ ticket moves, ∀ r ∈ (Loop.life who ticket moves).sent,
        ∃ own, Url.ofText? (feedAddress who.topicUrl) = some own ∧ Starts since e own r ∧
          ('?' ∉ who.topicUrl.toList → own.valuesOf "since" = []) := by
  refine ⟨fun args file given => startOptions_of_ofArgs, fun v => ⟨ofArgs_inline v, ofArgs_next⟩,
    fun v hv hbad e url hurl drawn hasRuntime => ?_, fun drawn who hwho => ?_,
    fun e who hfollows ticket moves r hr => ?_⟩
  · refine Client.subscribe_refused ?_ drawn hasRuntime
    rw [Client.refusal?_invalidOption_iff, firstFault?_entryOptions, Option.mem_def.mp hv]
    refine ⟨⟨url, hurl⟩, ?_⟩
    rw [Option.bind_some, fault?, if_neg (mt isSince_iff.mp hbad)]
  · rcases Client.listeners_follow drawn c _ who hwho with hold | ⟨p, hp, hurl, hoptions⟩
    · exact .inl hold
    · obtain ⟨e, he, rfl⟩ := List.mem_map.mp hp
      exact .inr ⟨e, he, hurl, hoptions⟩
  · obtain ⟨own, hown, hstarts⟩ := hfollows.starts (Loop.life_builds who ticket moves r hr)
    refine ⟨own, hown, hstarts, fun hplain => ?_⟩
    have hnone := Url.query_of_not_mem hown (question_not_mem_feedAddress hplain)
    rw [Url.valuesOf, hnone]
    rfl

/-- A client whose settings list one topic, with a condition of another name. -/
def onePriority : Client :=
  Client.new
    { subscriptions := [{ topic := "http://h/t", conditions := .ofList [("priority", "5")] }] }
    Client.droppingHost

theorem since_of_one_priority :
    let feeds := followed onePriority.settings [] (startOptions (some "10m"))
    ∃ who ∈ (onePriority.follow ["0123456789"] feeds).1.listeners,
      ∃ r ∈ (Loop.life who 0 [(onePriority.hub, .step)]).sent,
        r.url.valuesOf "since" = ["10m"] := by
  intro feeds
  obtain ⟨who, hlisteners, hsent⟩ :
      ∃ who, (onePriority.follow ["0123456789"] feeds).1.listeners = [who] ∧
        (Loop.life who 0 [(onePriority.hub, .step)]).sent ≠ [] :=
    ⟨{ topicUrl := "http://h/t", subscriptionId := "0123456789"
       options := [.since "10m", .filter "priority" "5"], delay := 10000 },
      by decide +kernel, by decide +kernel⟩
  obtain ⟨r, hr⟩ := List.exists_mem_of_ne_nil _ hsent
  have hwho : who ∈ (onePriority.follow ["0123456789"] feeds).1.listeners :=
    hlisteners ▸ List.mem_singleton_self who
  refine ⟨who, hwho, r, hr, ?_⟩
  obtain ⟨-, -, -, hloops, hrequests⟩ := since_of_followed onePriority (some "10m")
  rcases hloops _ who hwho with hold | ⟨e, he, hfollows⟩
  · cases hold
  · obtain rfl := List.mem_singleton.mp he
    obtain ⟨own, -, hstarts, hnone⟩ := hrequests _ who hfollows 0 _ r hr
    have hurl : "http://h/t" = who.topicUrl := Except.ok.inj hfollows.topic
    rw [hstarts.values, hnone (hurl ▸ by decide)]
    rfl

/-- **A condition goes before the start that was given,** and it need not be a start. Neither need
the value that an address brings, which is sent along with the one that was given. -/
theorem condition_instead_of_since :
    let s (e : Settings.Entry) : Settings := { subscriptions := [e] }
    let sent (e : Settings.Entry) (given : List RequestOption) : List (List String) :=
      let c := Client.new (s e) Client.droppingHost
      (((c.follow ["0123456789"] (followed (s e) [] given)).1.step 0).hub.network.requests).map
        fun r => r.url.valuesOf "since"
    Invocation.ofArgs ["subscribe", "--since", "10m"] =
      .ok ⟨none, .subscribe [] [.since "10m"]⟩ ∧
    sent { topic := "http://h/t", conditions := .ofList [("since", "yesterday")] }
      [.since "10m"] = [["yesterday"]] ∧
    sent { topic := "http://h/t?since=5" } [.since "10m"] = [["5/json", "10m"]] ∧
    isSince "yesterday" = false ∧ isSince "5/json" = false := by
  decide +kernel

end Command

end TopicFeed
