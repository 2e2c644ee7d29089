import TopicFeed.Proofs.Building
import TopicFeed.Proofs.Form
import TopicFeed.Proofs.Hosts

/-!
What stands in the query of a request.

A topic without a question mark has a URL without a query, and no path ever holds a question mark,
since one in a path is written by its digits. So what stands behind the first question mark of a
request is what the options put there, and it is read back as the pairs that they stored.
-/

namespace TopicFeed

open Network Request

namespace Url

/-! ### Texts without a mark -/

section Cut

variable {mark : Char} {cs : List Char}

lemma cut_of_not_mem (h : mark ∉ cs) : cut mark cs = (cs, none) := by
  have hnone : cs.dropWhile (· ≠ mark) = [] := by
    simp only [List.dropWhile_eq_nil_iff, decide_eq_true_eq]
    rintro c hc rfl
    exact h hc
  rw [cut, hnone]

lemma cut_mark (h : mark ∉ cs) (behind : List Char) :
    cut mark (cs ++ mark :: behind) = (cs, some behind) := by
  have hpos : ∀ c ∈ cs, decide (c ≠ mark) = true := by
    intro c hc
    exact decide_eq_true fun heq => h (heq ▸ hc)
  rw [cut, List.dropWhile_append_of_pos hpos, List.takeWhile_append_of_pos hpos]
  simp

lemma mem_of_mem_cut {c : Char} (h : c ∈ (cut mark cs).1) : c ∈ cs := by
  unfold cut at h
  split at h
  · exact h
  · exact (List.takeWhile_sublist _).subset h

end Cut

lemma mem_of_mem_significant {s : String} {c : Char} (h : c ∈ significant s) : c ∈ s.toList := by
  have h := List.mem_reverse.mp (List.mem_of_mem_filter h)
  have h := List.mem_reverse.mp ((List.dropWhile_sublist _).subset h)
  exact (List.dropWhile_sublist _).subset h

/-- A text without a question mark writes a URL without a query. -/
lemma query_of_not_mem {s : String} {u : Url} (hu : ofText? s = some u) (h : '?' ∉ s.toList) :
    u.query = none := by
  unfold ofText? at hu
  obtain ⟨⟨scheme, rest⟩, hsplit, hparts⟩ := Option.bind_eq_some_iff.mp hu
  have hfront : '?' ∉ (cut '#' rest).1 := fun hmem =>
    h (mem_of_mem_significant ((suffix_of_splitScheme? hsplit).subset (mem_of_mem_cut hmem)))
  simp only [cut_of_not_mem hfront] at hparts
  obtain ⟨v, -, rfl⟩ := Option.map_eq_some_iff.mp hparts
  rfl

/-! ### Paths -/

lemma question_not_mem_encodeChars (cs : List Char) :
    '?' ∉ Percent.encodeChars Percent.path cs :=
  fun h => absurd (mem_of_mem_encodeChars (by decide) (by decide +kernel) h).2 (by decide)

/-- One segment more is put with those that were there, or takes one away, or leaves an empty one. -/
lemma resolve_cons (keepsRoot : List Char → Bool) (done : List (List Char)) (next : List Char)
    (rest : List (List Char)) :
    ∃ done', Path.resolve keepsRoot done (next :: rest) = Path.resolve keepsRoot done' rest ∧
      ∀ x ∈ done', x ∈ done ∨ x = next ∨ x = [] := by
  have hatEnd : ∀ x ∈ (if rest.isEmpty then [[]] else [] : List (List Char)), x = [] := by
    intro x hx
    split at hx
    · exact List.mem_singleton.mp hx
    · cases hx
  generalize hresult : Path.resolve keepsRoot done (next :: rest) = result
  unfold Path.resolve at hresult
  simp only at hresult
  split at hresult
  · refine ⟨_, hresult.symm, fun x hx => ?_⟩
    rcases List.mem_append.mp hx with hend | hshorter
    · exact .inr (.inr (hatEnd x hend))
    · left
      split at hshorter
      · split at hshorter
        · exact hshorter
        · cases hshorter
      · exact List.mem_of_mem_drop hshorter
  · split at hresult
    · refine ⟨_, hresult.symm, fun x hx => ?_⟩
      rcases List.mem_append.mp hx with hend | hdone
      · exact .inr (.inr (hatEnd x hend))
      · exact .inl hdone
    · refine ⟨_, hresult.symm, fun x hx => ?_⟩
      rcases List.mem_cons.mp hx with hnext | hdone
      · exact .inr (.inl hnext)
      · exact .inl hdone

/-- Resolving the dots leaves segments that were there, and empty ones. -/
lemma mem_resolve {keepsRoot : List Char → Bool} {segment : List Char} {rest : List (List Char)}
    {done : List (List Char)} (h : segment ∈ Path.resolve keepsRoot done rest) :
    segment ∈ done ∨ segment ∈ rest ∨ segment = [] := by
  induction rest generalizing done with
  | nil => exact .inl (List.mem_reverse.mp h)
  | cons next rest ih =>
    obtain ⟨done', hresolve, hdone'⟩ := resolve_cons keepsRoot done next rest
    rw [hresolve] at h
    rcases ih h with hdone | hrest | hnil
    · rcases hdone' segment hdone with hdone | rfl | hnil
      · exact .inl hdone
      · exact .inr (.inl List.mem_cons_self)
      · exact .inr (.inr hnil)
    · exact .inr (.inl (List.mem_cons_of_mem _ hrest))
    · exact .inr (.inr hnil)

lemma question_not_mem_segments {scheme : String} (hfile : scheme ≠ "file") {cs : List Char}
    {segment : String} (h : segment ∈ segments scheme cs) : '?' ∉ segment.toList := by
  unfold segments at h
  obtain ⟨written, hwritten, rfl⟩ := List.mem_map.mp h
  rw [String.toList_ofList]
  rcases mem_resolve hwritten with hdone | hraw | rfl
  · cases hdone
  · split at hraw
    · next hsplit =>
      simp only [beq_eq_false_iff_ne.mpr hfile, Bool.false_and, Bool.false_eq_true, if_false] at hraw
      rw [← hsplit] at hraw
      obtain ⟨piece, -, rfl⟩ := List.mem_map.mp hraw
      exact question_not_mem_encodeChars piece
    · cases hraw
  · exact List.not_mem_nil

/-- No path of a request holds a question mark. -/
lemma question_not_mem_pathText {s : String} {u : Url} (hu : ofText? s = some u)
    (hsend : isSendable u = true) : '?' ∉ u.pathText.toList := by
  obtain ⟨scheme, rest, v, -, hv, hscheme, -, -, hpath⟩ := exists_parts hu
  have hweb : scheme = "http" ∨ scheme = "https" := by
    rw [← scheme_of_parts? hv, ← hscheme]
    simpa [isSendable] using hsend
  have hfile : scheme ≠ "file" := by rcases hweb with rfl | rfl <;> decide
  obtain ⟨behind, hbehind⟩ : ∃ behind, v.path = .segments (segments scheme behind) := by
    rw [parts?_web hweb] at hv
    obtain ⟨_, -, rfl⟩ := Option.map_eq_some_iff.mp hv
    exact ⟨_, rfl⟩
  rw [pathText, hpath, hbehind]
  simp only [String.toList_append, String.toList_join, List.mem_append, not_or]
  constructor
  · split <;> decide
  · intro hmem
    obtain ⟨text, htext, hmem⟩ := List.mem_flatMap.mp hmem
    obtain ⟨segment, hsegment, rfl⟩ := List.mem_map.mp htext
    rw [String.toList_append] at hmem
    rcases List.mem_append.mp hmem with hslash | hmem
    · exact absurd hslash (by decide)
    · exact question_not_mem_segments hfile hsegment hmem

end Url

/-! ### Requests -/

namespace Request

/-- The request carries these pairs in its query, and carries nothing else there: the query is what
stands behind the first question mark of what is asked of the host, there is one only for pairs, and
it is read back as the pairs. -/
structure Carries (r : Request) (pairs : List (String × String)) : Prop where
  decoded : Url.Form.decode (r.url.query.getD "") = pairs
  absent : r.url.query = none ↔ pairs = []
  target : Url.cut '?' r.url.target.toList = (r.url.pathText.toList, r.url.query.map String.toList)

variable {method : Method} {address : String} {spec : Spec} {body : Bytes} {r : Request}

/-- **A request carries the pairs of its specification,** if its address has no question mark. -/
theorem carries_of_ofSpec (hplain : '?' ∉ address.toList)
    (hr : ofSpec method address spec body = .ok r) : r.Carries spec.query := by
  obtain ⟨url, hurl, -, hsend, -, rfl⟩ := ofSpec_eq_ok_iff.mp hr
  have hnone := Url.query_of_not_mem hurl hplain
  have hpath := Url.question_not_mem_pathText hurl hsend
  -- the URL less its user is the one that the pairs are put to
  obtain ⟨bare, hbare, hquery, htext⟩ : ∃ bare : Url,
      (onUrl method url spec body).url = bare.addPairs spec.query ∧ bare.query = none ∧
        '?' ∉ bare.pathText.toList := by
    refine ⟨_, rfl, ?_⟩
    split
    · exact ⟨hnone, hpath⟩
    · exact ⟨hnone, hpath⟩
  rcases hpairs : spec.query with _ | ⟨p, pairs⟩
  · have hbare : (onUrl method url spec body).url = bare := by
      rw [hbare, hpairs]
      rfl
    refine ⟨?_, ?_, ?_⟩
    · rw [hbare, hquery]
      rfl
    · simp [hbare, hquery]
    · have htarget : bare.target.toList = bare.pathText.toList := by simp [Url.target, hquery]
      rw [hbare, htarget, Url.cut_of_not_mem htext, hquery]
      rfl
  · have hbare : (onUrl method url spec body).url =
        { bare with query := some (String.ofList (Url.Form.encode (p :: pairs))) } := by
      rw [hbare, hpairs, Url.addPairs, hquery]
      rfl
    refine ⟨?_, ?_, ?_⟩
    · rw [hbare]
      exact Url.Form.decode_encode (p :: pairs)
    · simp [hbare]
    · rw [hbare]
      have htarget : ({ bare with query := some (String.ofList (Url.Form.encode (p :: pairs))) } :
          Url).target.toList = bare.pathText.toList ++ '?' :: Url.Form.encode (p :: pairs) := by
        simp [Url.target, Url.pathText, String.toList_append]
      rw [htarget, Url.cut_mark htext]
      simp [Url.pathText]

end Request

namespace Network

variable {net : Network} {topicUrl address : String} {options : List RequestOption} {body : Bytes}
variable {method : Method} {r : Request}

lemma Builds.carries (h : Builds method address options body r) (hplain : '?' ∉ address.toList)
    {spec : Spec} (hspec : Spec.ofOptions options = .ok spec) : r.Carries spec.query := by
  obtain ⟨spec', hspec', hr⟩ := h
  cases hspec.symm.trans hspec'
  exact carries_of_ofSpec hplain hr

lemma question_not_mem_feedAddress (h : '?' ∉ topicUrl.toList) :
    '?' ∉ (feedAddress topicUrl).toList := by
  rw [feedAddress, String.toList_append, List.mem_append, not_or]
  exact ⟨h, by decide⟩

/-- Publishing sends the request, and no other. -/
lemma publish_sends (h : net.Sends .post topicUrl options body r) :
    (net.publish topicUrl body options).1.requests = (net.send r).1.requests := by
  rw [publish, h]
  rcases (net.send r).2 with f | ⟨status, answer⟩
  · rfl
  · simp only [Except.mapError]
    split <;> rfl

/-- Polling sends the request, and no other. -/
lemma poll_sends (h : net.Sends .get (feedAddress topicUrl) (options ++ [.poll]) [] r) :
    (net.poll topicUrl options).1.requests = (net.send r).1.requests := by
  rw [← openFeed_sends h, poll]
  generalize net.openFeed topicUrl (options ++ [.poll]) = x
  rcases x with ⟨net', f | e | _⟩
  · simp only
    split <;> rfl
  · rfl
  · rfl

end Network

namespace Client

/-- Asking for a poll puts one pair behind the others, and takes away what had its name. -/
lemma query_of_poll {options : List RequestOption} {spec asked : Spec}
    (hspec : Spec.ofOptions options = .ok spec)
    (hasked : Spec.ofOptions (options ++ [.poll]) = .ok asked) :
    asked.query = spec.query.erase "poll" ++ [("poll", "1")] := by
  obtain ⟨before, hbefore, hpoll⟩ := Spec.ofOptions_concat hasked
  cases hspec.symm.trans hbefore
  cases hpoll
  rfl

/-- **Query parameters arrive as they were stored,** whatever their names and values are. The
options of a call are accepted, and the URL of its topic has no question mark. Then each request
that is made of them carries exactly the stored pairs, and it is what the call sends. The request of
a poll carries one pair more, as the last one, and no other of that name, whatever the options were;
an attempt to follow the topic carries the stored ones. -/
theorem query_of_options {c : Client} {topic url : String} {options : List RequestOption}
    {spec : Spec} (hurl : c.resolve topic = .ok url) (hplain : '?' ∉ url.toList)
    (hspec : Spec.ofOptions options = .ok spec) :
    (∀ (body : Bytes) (r : Request), Builds .post url options body r →
      r.Carries spec.query ∧
        (c.publish topic body options).1.hub.network.requests =
          (c.hub.network.send r).1.requests) ∧
    (∀ r : Request, Builds .get (feedAddress url) (options ++ [.poll]) [] r →
      (∃ before, before = spec.query.erase "poll" ∧ (∀ p ∈ before, p.1 ≠ "poll") ∧
        r.Carries (before ++ [("poll", "1")])) ∧
        (c.poll topic options).1.hub.network.requests = (c.hub.network.send r).1.requests) ∧
    ∀ (l : Loop) (hub : Hub) (r : Request), l.who.topicUrl = url → l.who.options = options →
      l.canceled = false → l.phase = .attempting .connecting →
      Builds .get (feedAddress url) options [] r →
        r.Carries spec.query ∧ (l.step hub).1.network.requests = (hub.network.send r).1.requests := by
  have hfeed := question_not_mem_feedAddress hplain
  refine ⟨fun body r hr => ⟨hr.carries hplain hspec, ?_⟩, fun r hr => ⟨?_, ?_⟩,
    fun l hub r htopic hoptions hc hp hr => ⟨hr.carries hfeed hspec, ?_⟩⟩
  · rw [← publish_sends (hr.sends c.hub.network), Client.publish, hurl]
  · obtain ⟨asked, hasked, hr⟩ := hr
    have hcarries := carries_of_ofSpec hfeed hr
    rw [query_of_poll hspec hasked] at hcarries
    refine ⟨_, rfl, fun p hp => ?_, hcarries⟩
    simpa [Named.erase] using (List.mem_filter.mp hp).2
  · rw [← poll_sends (hr.sends c.hub.network), Client.poll, hurl]
  · subst htopic hoptions
    exact step_sends hc hp hr

/-- Names and values with the signs of a query in them, and a poll that is asked for in vain. -/
def oddOptions : List RequestOption :=
  [.query "poll" "0", .query "a&poll=2" "b=c+d %26#", .query "é\n" ""]

theorem query_of_odd_options :
    ∃ r, Builds .get (feedAddress "https://h/t") (oddOptions ++ [.poll]) [] r ∧
      r.Carries [("a&poll=2", "b=c+d %26#"), ("é\n", ""), ("poll", "1")] ∧
      ((new {} droppingHost).poll "https://h/t" oddOptions).1.hub.network.requests = [r] := by
  have haccepted : RequestOption.firstFault? (oddOptions ++ [.poll]) = none := by decide +kernel
  have haddress : Askable (feedAddress "https://h/t") := by decide +kernel
  have hfit : RequestOption.Fit (oddOptions ++ [.poll]) := by decide +kernel
  obtain ⟨r, hr⟩ := exists_builds haccepted haddress hfit .get []
  have hurl : (new {} droppingHost).resolve "https://h/t" = .ok "https://h/t" := rfl
  have hspec : Spec.ofOptions oddOptions =
      .ok { query := [("poll", "0"), ("a&poll=2", "b=c+d %26#"), ("é\n", "")] } := rfl
  obtain ⟨-, hpoll, -⟩ := query_of_options hurl (by decide) hspec
  obtain ⟨⟨before, rfl, -, hcarries⟩, hsent⟩ := hpoll r hr
  exact ⟨r, hr, hcarries, hsent⟩

end Client

end TopicFeed
