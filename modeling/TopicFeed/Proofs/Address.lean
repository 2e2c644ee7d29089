import Mathlib.Data.List.DropRight
import Mathlib.Data.List.TakeWhile
import TopicFeed.Proofs.Sending

/-!
Where the feed of a topic is asked for.

The address of a feed is the URL of its topic with something behind it. A topic that requests can be
sent to has a feed that requests can be sent to, unless its URL ends in a blank: at the end blanks
do not count, and in the middle they do.
-/

namespace TopicFeed

namespace Url

/-- The text does not end in a control or a space. -/
def EndsPlainly (s : String) : Prop := ∀ c, s.toList.getLast? = some c → isMargin c = false

/-- What stands behind the URL of a topic in the address of its feed. -/
def feedPath : List Char := "/json".toList

variable {cs rest : List Char} {scheme : String}

/-- The blanks that are cut off at the end of a text, but for those that count nowhere. -/
def gap (s : String) : List Char :=
  ((s.toList.dropWhile isMargin).rtakeWhile isMargin).filter (!isIgnored ·)

lemma gap_eq_nil_of_endsPlainly {s : String} (h : EndsPlainly s) : gap s = [] := by
  obtain ⟨front, hfront⟩ := List.dropWhile_suffix (l := s.toList) isMargin
  rw [gap]
  generalize s.toList.dropWhile isMargin = cs at *
  rcases List.eq_nil_or_concat' cs with rfl | ⟨before, c, rfl⟩
  · rfl
  · have hlast := h c (by rw [← hfront, ← List.append_assoc, List.getLast?_concat])
    rw [List.rtakeWhile_concat_neg isMargin before c (by simp [hlast]), List.filter_nil]

/-- In the address of a feed the blanks at the end of the URL stand before the path. -/
lemma significant_append {s : String} (hs : s.toList.dropWhile isMargin ≠ []) :
    significant (s ++ "/json") = significant s ++ gap s ++ feedPath := by
  have hkept : (s.toList.dropWhile isMargin ++ feedPath).rdropWhile isMargin =
      s.toList.dropWhile isMargin ++ feedPath := by
    refine List.rdropWhile_eq_self_iff.mpr fun hne => ?_
    rw [List.getLast_append_of_ne_nil hne (by decide)]
    decide
  have hplain : feedPath.filter (!isIgnored ·) = feedPath := by decide
  have hsplit : (s.toList.dropWhile isMargin).rdropWhile isMargin ++
      (s.toList.dropWhile isMargin).rtakeWhile isMargin = s.toList.dropWhile isMargin :=
    List.rdropWhile_append_rtakeWhile
  calc significant (s ++ "/json")
      = (s.toList.dropWhile isMargin ++ feedPath).filter (!isIgnored ·) := by
        rw [← hkept, significant, String.toList_append, List.dropWhile_append,
          if_neg (by simpa using hs)]
        rfl
    _ = ((s.toList.dropWhile isMargin).rdropWhile isMargin).filter (!isIgnored ·) ++ gap s ++
          feedPath := by
        rw [List.filter_append, hplain, gap, ← List.filter_append, hsplit]
    _ = significant s ++ gap s ++ feedPath := rfl

lemma splitScheme?_append (h : splitScheme? cs = some (scheme, rest)) (more : List Char) :
    splitScheme? (cs ++ more) = some (scheme, rest ++ more) := by
  unfold splitScheme? at h ⊢
  simp only at h ⊢
  split at h
  · next c name behind hscheme hbehind =>
    have hlt : (cs.takeWhile isSchemeChar).length < cs.length := by
      have hlength := congrArg List.length hbehind
      rw [List.length_drop, List.length_cons] at hlength
      omega
    rw [List.takeWhile_append, if_neg (by omega), List.drop_append_of_le_length hlt.le, hscheme]
    rw [hscheme] at hbehind
    rw [hbehind, List.cons_append]
    simp only
    split at h
    · next hletter =>
      cases h
      rw [if_pos hletter, hscheme]
    · cases h
  · cases h

/-- A scheme is what stands before the first colon. -/
lemma eq_append_of_splitScheme? (h : splitScheme? cs = some (scheme, rest)) :
    ∃ name, cs = name ++ ':' :: rest ∧ ∀ c ∈ name, isSchemeChar c = true := by
  unfold splitScheme? at h
  simp only at h
  split at h
  · next hbehind =>
    split at h
    · cases h
      refine ⟨cs.takeWhile isSchemeChar, ?_, fun c hc => List.mem_takeWhile_imp hc⟩
      rw [← hbehind]
      exact (List.prefix_iff_eq_append.mp (List.takeWhile_prefix isSchemeChar)).symm
    · cases h
  · cases h

lemma suffix_of_splitScheme? (h : splitScheme? cs = some (scheme, rest)) : rest <:+ cs := by
  obtain ⟨name, rfl, -⟩ := eq_append_of_splitScheme? h
  exact (List.suffix_cons _ _).trans (List.suffix_append _ _)

lemma cut_append {mark : Char} {more : List Char} (hmore : mark ∉ more) (cs : List Char) :
    cut mark (cs ++ more) =
      match cut mark cs with
      | (before, none) => (before ++ more, none)
      | (before, some behind) => (before, some (behind ++ more)) := by
  have hplain : more.dropWhile (· ≠ mark) = [] := by
    simp only [List.dropWhile_eq_nil_iff, decide_eq_true_eq]
    rintro c hc rfl
    exact hmore hc
  unfold cut
  rw [List.dropWhile_append]
  rcases hcs : cs.dropWhile (· ≠ mark) with _ | ⟨c, behind⟩
  · simp only [List.isEmpty_nil, if_true, hplain]
  · have hlt : (cs.takeWhile (· ≠ mark)).length < cs.length := by
      have hlength := congrArg List.length (cs.takeWhile_append_dropWhile (p := (· ≠ mark)))
      rw [hcs, List.length_append, List.length_cons] at hlength
      omega
    simp only [List.isEmpty_cons, Bool.false_eq_true, if_false, List.cons_append]
    rw [List.takeWhile_append, if_neg (by omega)]

lemma authority?_nil (h : isSpecialScheme scheme = true) : authority? scheme [] = none := by
  have hhost : Host.special? [] = none := by decide +kernel
  simp [authority?, splitUser, splitHost, h, hhost]

/-- What names the authority behind the slashes that lead to it. -/
def nameOf (cs : List Char) : List Char := (cs.dropWhile isLeading).takeWhile (!isLeading ·)

/-- What stands behind the authority. -/
def behindName (cs : List Char) : List Char := (cs.dropWhile isLeading).dropWhile (!isLeading ·)

/-- The parts of a URL of the web: an authority, and a path behind it. -/
lemma parts?_web (hscheme : scheme = "http" ∨ scheme = "https") (cs : List Char) :
    parts? scheme cs =
      (authority? scheme (nameOf cs)).map fun (username, password, host, number) =>
        { scheme, username, password, host := some host, portNumber := number
          path := .segments (segments scheme (behindName cs)) } := by
  have hfile : scheme ≠ "file" := by rcases hscheme with rfl | rfl <;> decide
  have hspecial : isSpecialScheme scheme = true := by rcases hscheme with rfl | rfl <;> decide
  have hbehind : (cs.dropWhile isLeading).drop (nameOf cs).length = behindName cs := by
    have hsplit := (cs.dropWhile isLeading).takeWhile_append_dropWhile (p := (!isLeading ·))
    exact (congrArg (List.drop (nameOf cs).length) hsplit).symm.trans List.drop_left
  unfold parts?
  simp only [hfile, hspecial, if_true, if_false, pathBehind, Bool.not_true, Bool.and_false,
    Bool.false_eq_true]
  rw [← nameOf, hbehind]

/-- A URL of the web has an authority, so there is more than slashes. -/
lemma dropWhile_isLeading_ne_nil (hscheme : scheme = "http" ∨ scheme = "https") {u : Url}
    (h : parts? scheme cs = some u) : cs.dropWhile isLeading ≠ [] := by
  have hspecial : isSpecialScheme scheme = true := by rcases hscheme with rfl | rfl <;> decide
  intro hnil
  rw [parts?_web hscheme, nameOf, hnil, List.takeWhile_nil, authority?_nil hspecial] at h
  cases h

/-- What is put behind a path belongs to the path, and what is put behind an authority that has no
path belongs to the authority up to the first slash. -/
lemma nameOf_append (hcs : cs.dropWhile isLeading ≠ []) (more : List Char) :
    (behindName cs ≠ [] → nameOf (cs ++ more) = nameOf cs ∧
      behindName (cs ++ more) = behindName cs ++ more) ∧
    (behindName cs = [] → nameOf (cs ++ more) = nameOf cs ++ more.takeWhile (!isLeading ·) ∧
      behindName (cs ++ more) = more.dropWhile (!isLeading ·)) := by
  have hsplit := (cs.dropWhile isLeading).takeWhile_append_dropWhile (p := (!isLeading ·))
  have hlength := congrArg List.length hsplit
  rw [List.length_append] at hlength
  unfold nameOf behindName
  rw [List.dropWhile_append, if_neg (by simpa using hcs), List.takeWhile_append,
    List.dropWhile_append]
  constructor
  · intro hbehind
    have hpos := List.length_pos_of_ne_nil hbehind
    rw [if_neg (by omega), if_neg (by simpa using hbehind)]
    exact ⟨rfl, rfl⟩
  · intro hbehind
    rw [hbehind, List.append_nil] at hsplit
    rw [hsplit, if_pos rfl, if_pos (by simpa using hbehind)]
    exact ⟨rfl, rfl⟩

/-- A feed has the authority of its topic, and its path behind that of the topic. -/
lemma nameOf_feedPath (hcs : cs.dropWhile isLeading ≠ []) :
    nameOf (cs ++ feedPath) = nameOf cs ∧
      behindName (cs ++ feedPath) = behindName cs ++ feedPath := by
  obtain ⟨hpath, hbare⟩ := nameOf_append hcs feedPath
  by_cases hbehind : behindName cs = []
  · obtain ⟨hname, hbehind'⟩ := hbare hbehind
    have hslash : feedPath.takeWhile (!isLeading ·) = [] := by decide
    rw [hslash, List.append_nil] at hname
    exact ⟨hname, hbehind'.trans (by rw [hbehind]; decide)⟩
  · exact hpath hbehind

/-- Behind a host the path goes on, and the host stays. -/
lemma parts?_feedPath (hscheme : scheme = "http" ∨ scheme = "https") {u : Url}
    (h : parts? scheme cs = some u) :
    ∃ v, parts? scheme (cs ++ feedPath) = some v ∧ v.scheme = u.scheme ∧ v.host = u.host := by
  obtain ⟨hname, -⟩ := nameOf_feedPath (dropWhile_isLeading_ne_nil hscheme h)
  rw [parts?_web hscheme] at h ⊢
  rw [hname]
  obtain ⟨⟨username, password, host, number⟩, hauthority, rfl⟩ := Option.map_eq_some_iff.mp h
  rw [hauthority]
  exact ⟨_, rfl, rfl, rfl⟩

lemma scheme_of_fileParts? {u : Url} (h : fileParts? cs = some u) : u.scheme = "file" := by
  unfold fileParts? at h
  simp only at h
  split at h
  · split at h
    · split at h
      · cases h
        rfl
      · split at h
        · cases h
          rfl
        · obtain ⟨host, -, rfl⟩ := Option.map_eq_some_iff.mp h
          rfl
    · cases h
      rfl
  · cases h
    rfl

lemma scheme_of_parts? {u : Url} (h : parts? scheme cs = some u) : u.scheme = scheme := by
  unfold parts? at h
  simp only at h
  split at h
  · next hfile => rw [scheme_of_fileParts? h, hfile]
  · split at h
    · obtain ⟨_, -, rfl⟩ := Option.map_eq_some_iff.mp h
      rfl
    · split at h
      · obtain ⟨_, -, rfl⟩ := Option.map_eq_some_iff.mp h
        rfl
      · cases h
        rfl
      · cases h
        rfl

/-- What stands before query and fragment. -/
def front (cs : List Char) : List Char := (cut '?' (cut '#' cs).1).1

/-- Query and fragment are no matter of the other parts. -/
lemma exists_parts {s : String} {u : Url} (hu : ofText? s = some u) : ∃ scheme rest w,
    splitScheme? (significant s) = some (scheme, rest) ∧ parts? scheme (front rest) = some w ∧
      u.scheme = w.scheme ∧ u.host = w.host ∧ u.portNumber = w.portNumber ∧ u.path = w.path := by
  unfold ofText? at hu
  obtain ⟨⟨scheme, rest⟩, hsplit, hparts⟩ := Option.bind_eq_some_iff.mp hu
  obtain ⟨w, hw, rfl⟩ := Option.map_eq_some_iff.mp hparts
  exact ⟨scheme, rest, w, hsplit, hw, rfl, rfl, rfl, rfl⟩

/-- **The address of a feed writes a URL with the host of its topic.** -/
lemma ofText?_feedAddress {s : String} {u : Url} (hu : ofText? s = some u)
    (hscheme : u.scheme = "http" ∨ u.scheme = "https") (hend : EndsPlainly s) :
    ∃ v, ofText? (s ++ "/json") = some v ∧ v.scheme = u.scheme ∧ v.host = u.host := by
  unfold ofText? at hu
  obtain ⟨⟨scheme, rest⟩, hsplit, hparts⟩ := Option.bind_eq_some_iff.mp hu
  have hs : s.toList.dropWhile isMargin ≠ [] := by
    intro hnil
    simp [significant, hnil, splitScheme?] at hsplit
  unfold ofText?
  rw [significant_append hs, gap_eq_nil_of_endsPlainly hend, List.append_nil,
    splitScheme?_append hsplit]
  simp only [Option.bind_some]
  simp only at hparts
  rw [cut_append (by decide)]
  rcases hfragment : cut '#' rest with ⟨front, fragment⟩
  rw [hfragment] at hparts
  rcases hquery : cut '?' front with ⟨body, query⟩
  simp only [hquery] at hparts
  obtain ⟨v, hv, rfl⟩ := Option.map_eq_some_iff.mp hparts
  rcases fragment with _ | fragment
  · simp only
    rw [cut_append (by decide), hquery]
    rcases query with _ | query
    · -- nothing stands behind the path, so the path goes on
      have hbody := scheme_of_parts? hv
      simp only at hscheme
      rw [hbody] at hscheme
      obtain ⟨w, hw, hsame, hhost⟩ := parts?_feedPath hscheme hv
      exact ⟨_, Option.map_eq_some_iff.mpr ⟨w, hw, rfl⟩, hsame, hhost⟩
    · exact ⟨_, Option.map_eq_some_iff.mpr ⟨v, hv, rfl⟩, rfl, rfl⟩
  · simp only [hquery]
    exact ⟨_, Option.map_eq_some_iff.mpr ⟨v, hv, rfl⟩, rfl, rfl⟩

end Url

/-- **A topic that requests can be sent to has a feed that requests can be sent to,** if its URL
does not end in a blank. -/
theorem Request.askable_feedAddress {url : String} (h : Askable url) (hend : Url.EndsPlainly url) :
    Askable (Network.feedAddress url) := by
  obtain ⟨u, hu, hhost, hsend⟩ := h
  have hscheme : u.scheme = "http" ∨ u.scheme = "https" := by
    simpa [isSendable] using hsend
  obtain ⟨v, hv, hsame, hhost'⟩ := Url.ofText?_feedAddress hu hscheme hend
  refine ⟨v, hv, ?_, ?_⟩
  · rw [Url.hasHost, hhost', ← Url.hasHost, hhost]
  · rw [isSendable, hsame, ← isSendable, hsend]

end TopicFeed
