import TopicFeed.Proofs.Query

/-!
Where a topic is published to, and where it is listened to.

The address of a feed is that of its topic with a path behind it. Both have the same scheme, host
and number, since nothing that begins with a blank or a slash could belong to a host. If neither a
query nor a fragment comes between, the path of the feed is the path of the topic with one segment
more, and else it is the same. A slash at the end that the topic does not write, since it has no
path or a dot segment there, is the slash of that segment.
-/

namespace TopicFeed

namespace Url

variable {c : Char} {cs more : List Char} {scheme : String}

/-! ### One segment more -/

namespace Path

variable {isSeparator : Char → Bool}

lemma split_ne_nil (cs : List Char) : split isSeparator cs ≠ [] := by
  cases cs with
  | nil => simp [split]
  | cons c cs =>
    rw [split]
    split
    · simp
    · split <;> simp

lemma split_append (hc : isSeparator c = true) (cs more : List Char) :
    split isSeparator (cs ++ c :: more) = split isSeparator cs ++ split isSeparator more := by
  induction cs with
  | nil => simp [split, hc]
  | cons d cs ih =>
    rw [List.cons_append, split, split, ih]
    split
    · rfl
    · rcases hsplit : split isSeparator cs with _ | ⟨piece, pieces⟩
      · exact absurd hsplit (split_ne_nil cs)
      · rfl

lemma split_plain (h : ∀ c ∈ cs, isSeparator c = false) : split isSeparator cs = [cs] := by
  induction cs with
  | nil => rfl
  | cons c cs ih =>
    obtain ⟨hc, hcs⟩ := List.forall_mem_cons.mp h
    rw [split, hc, ih hcs]
    rfl

/-- The last piece is what stands behind the last separator. -/
lemma split_last (isSeparator : Char → Bool) (cs : List Char) :
    ∃ pieces, split isSeparator cs = pieces ++ [cs.rtakeWhile (!isSeparator ·)] := by
  have hplain : split isSeparator (cs.rtakeWhile (!isSeparator ·)) =
      [cs.rtakeWhile (!isSeparator ·)] :=
    split_plain fun c hc => by simpa using List.mem_rtakeWhile_imp hc
  have hwhole : cs.rdropWhile (!isSeparator ·) ++ cs.rtakeWhile (!isSeparator ·) = cs :=
    List.rdropWhile_append_rtakeWhile
  rcases List.eq_nil_or_concat' (cs.rdropWhile (!isSeparator ·)) with hnil | ⟨front, c, hfront⟩
  · rw [hnil, List.nil_append] at hwhole
    exact ⟨[], by rw [hwhole] at hplain; rw [hwhole, hplain]; rfl⟩
  · have hc : isSeparator c = true := by
      have hlast := List.rdropWhile_last_not (!isSeparator ·) cs (by simp [hfront])
      simpa [hfront] using hlast
    refine ⟨split isSeparator front, ?_⟩
    rw [hfront, List.append_assoc, List.singleton_append] at hwhole
    have hsplit := split_append hc front (cs.rtakeWhile (!isSeparator ·))
    rw [hwhole] at hsplit
    rw [hsplit, hplain]

/-- A segment that only says where it stands, or one segment back. -/
def IsDots (segment : List Char) : Prop := isBack segment = true ∨ isHere segment = true

instance (segment : List Char) : Decidable (IsDots segment) :=
  inferInstanceAs (Decidable (_ ∨ _))

variable (keepsRoot : List Char → Bool) {segment next : List Char}

lemma resolve_plain (h : ¬IsDots segment) (done rest : List (List Char)) :
    resolve keepsRoot done (segment :: rest) = resolve keepsRoot (segment :: done) rest := by
  rw [IsDots, not_or] at h
  conv_lhs => unfold resolve
  simp only [h.1, h.2, Bool.false_eq_true, if_false]

/-- Dots at the end leave an empty segment there, and others leave none. -/
lemma resolve_dots (h : IsDots segment) (done : List (List Char)) : ∃ kept : List (List Char),
    ∀ rest, resolve keepsRoot done (segment :: rest) =
      resolve keepsRoot ((if rest.isEmpty then [[]] else []) ++ kept) rest := by
  rcases hback : isBack segment with _ | _
  · have hhere : isHere segment = true := h.resolve_left (by simp [hback])
    refine ⟨done, fun rest => ?_⟩
    conv_lhs => unfold resolve
    simp only [hback, hhere, Bool.false_eq_true, if_false, if_true]
  · rcases done with _ | ⟨root, _ | ⟨parent, done⟩⟩
    · exact ⟨[], fun rest => by simp [resolve, hback]⟩
    · exact ⟨if keepsRoot root then [root] else [], fun rest => by simp [resolve, hback]⟩
    · exact ⟨parent :: done, fun rest => by simp [resolve, hback]⟩

/-- One segment more comes behind the others, and takes the place of what dots leave behind. -/
lemma resolve_concat (hnext : ¬IsDots next) (last : List Char) (done front : List (List Char)) :
    ∃ kept : List (List Char),
      (IsDots last ∧ resolve keepsRoot done (front ++ [last]) = kept ++ [[]] ∧
        resolve keepsRoot done (front ++ [last, next]) = kept ++ [next]) ∨
      (¬IsDots last ∧ resolve keepsRoot done (front ++ [last]) = kept ++ [last] ∧
        resolve keepsRoot done (front ++ [last, next]) = kept ++ [last, next]) := by
  induction front generalizing done with
  | nil =>
    by_cases hlast : IsDots last
    · obtain ⟨kept, hkept⟩ := resolve_dots keepsRoot hlast done
      refine ⟨kept.reverse, .inl ⟨hlast, ?_, ?_⟩⟩
      · rw [List.nil_append, hkept]
        exact List.reverse_cons
      · rw [List.nil_append, hkept]
        exact (resolve_plain keepsRoot hnext kept []).trans List.reverse_cons
    · refine ⟨done.reverse, .inr ⟨hlast, ?_, ?_⟩⟩
      · rw [List.nil_append, resolve_plain keepsRoot hlast, resolve, List.reverse_cons]
      · rw [List.nil_append, resolve_plain keepsRoot hlast, resolve_plain keepsRoot hnext, resolve]
        simp
  | cons segment front ih =>
    by_cases hsegment : IsDots segment
    · obtain ⟨kept, hkept⟩ := resolve_dots keepsRoot hsegment done
      rw [List.cons_append, List.cons_append, hkept, hkept]
      simpa using ih kept
    · rw [List.cons_append, List.cons_append, resolve_plain keepsRoot hsegment,
        resolve_plain keepsRoot hsegment]
      exact ih (segment :: done)

end Path

/-! ### What segments are written -/

lemma slash_not_mem_encodeChars (h : '/' ∉ cs) : '/' ∉ Percent.encodeChars Percent.path cs :=
  fun hmem => h (mem_of_mem_encodeChars (by decide) (by decide +kernel) hmem).1

lemma encodeChars_eq_nil {encoded : UInt8 → Bool} (h : Percent.encodeChars encoded cs = []) :
    cs = [] := by
  by_contra hne
  obtain ⟨c, cs, rfl⟩ := List.exists_cons_of_ne_nil hne
  rw [Percent.encodeChars, List.flatMap_eq_nil_iff] at h
  have hbytes := List.flatMap_eq_nil_iff.mp (h c List.mem_cons_self)
  obtain ⟨b, bs, hb⟩ := List.exists_cons_of_ne_nil (String.utf8EncodeChar_ne_nil (c := c))
  have hnone := hbytes b (by simp [hb])
  split at hnone
  · cases hnone
  · cases hnone

/-- The segments behind the slash that begins a path of the web. -/
lemma segments_web (hscheme : scheme = "http" ∨ scheme = "https")
    (hcs : ∀ c r, cs = c :: r → isLeading c = true) :
    segments scheme cs =
      (Path.resolve (fun _ => false) []
        ((Path.split isLeading cs.tail).map (Percent.encodeChars Percent.path))).map
          String.ofList := by
  have hfile : (scheme == "file") = false := by rcases hscheme with rfl | rfl <;> decide
  have hspecial : isSpecialScheme scheme = true := by rcases hscheme with rfl | rfl <;> decide
  unfold segments
  simp only [hspecial, hfile, Bool.true_and, Bool.false_and, Bool.false_eq_true, if_false]
  rcases cs with _ | ⟨c, r⟩
  · rfl
  · have hc : (c == '/' || c == '\\') = true := hcs c r rfl
    simp only [hc, if_true]
    congr 2
    split
    · next hraw => exact hraw.symm
    · next hraw => exact hraw.symm

/-- What stands behind the last slash. -/
def behindSlash (cs : List Char) : List Char := cs.rtakeWhile (!isLeading ·)

/-- A text ends in a slash exactly if nothing stands behind its last one. -/
lemma behindSlash_eq_nil_iff (hcs : cs ≠ []) :
    behindSlash cs = [] ↔ cs.getLast?.any isLeading = true := by
  rw [behindSlash, List.rtakeWhile_eq_nil_iff, List.getLast?_eq_some_getLast hcs]
  simp [hcs]

lemma behindSlash_cons (hc : isLeading c = true) (cs : List Char) :
    behindSlash (c :: cs) = behindSlash cs := by
  rw [behindSlash, behindSlash, List.rtakeWhile, List.rtakeWhile, List.reverse_cons,
    List.takeWhile_append]
  split
  · next hall =>
    have hwhole := (List.takeWhile_prefix (!isLeading ·)).eq_of_length hall
    simp [hc, hwhole]
  · rfl

lemma exists_split (hc : isLeading c = true) (r : List Char) : ∃ pieces,
    Path.split isLeading r = pieces ++ [behindSlash (c :: r)] ∧
      Path.split isLeading (r ++ feedPath) = pieces ++ [behindSlash (c :: r), "json".toList] := by
  have hslash : isLeading '/' = true := rfl
  obtain ⟨pieces, hpieces⟩ := Path.split_last isLeading r
  rw [← behindSlash, ← behindSlash_cons hc] at hpieces
  have hsplit := Path.split_append hslash r "json".toList
  rw [hpieces, List.append_assoc] at hsplit
  exact ⟨pieces, hpieces, hsplit⟩

/-- **The path of a feed has one segment more than that of its topic.** It comes behind the last
one, or takes its place if this is empty since the topic writes none there. -/
lemma segments_feedPath (hscheme : scheme = "http" ∨ scheme = "https")
    (hcs : ∀ c r, cs = c :: r → isLeading c = true) : ∃ kept,
      (segments scheme cs = kept ++ [""] ∧ segments scheme (cs ++ feedPath) = kept ++ ["json"] ∧
        cs.getLast?.any isLeading = false) ∨
      ∃ last, segments scheme cs = kept ++ [last] ∧
        segments scheme (cs ++ feedPath) = kept ++ [last, "json"] ∧ '/' ∉ last.toList ∧
        (last = "" → cs.getLast?.any isLeading = true) := by
  have hmore : ∀ c r, cs ++ feedPath = c :: r → isLeading c = true := by
    intro c r h
    rcases cs with _ | ⟨d, cs⟩
    · cases h
      rfl
    · cases h
      exact hcs _ _ rfl
  rw [segments_web hscheme hcs, segments_web hscheme hmore]
  rcases cs with _ | ⟨c, r⟩
  · exact ⟨[], .inl ⟨by decide +kernel, by decide +kernel, rfl⟩⟩
  · have hc := hcs c r rfl
    have hplain : '/' ∉ behindSlash (c :: r) := fun h =>
      absurd (List.mem_rtakeWhile_imp h) (by decide)
    have hend := behindSlash_eq_nil_iff (List.cons_ne_nil c r)
    obtain ⟨pieces, htopic, hfeed⟩ := exists_split hc r
    generalize behindSlash (c :: r) = last at *
    have hkeep : Percent.encodeChars Percent.path "json".toList = "json".toList := by
      decide +kernel
    have hnext : ¬Path.IsDots "json".toList := by decide +kernel
    rw [List.cons_append, List.tail_cons, List.tail_cons, htopic, hfeed]
    simp only [List.map_append, List.map_cons, List.map_nil, hkeep]
    obtain ⟨kept, ⟨hdots, htopic, hfeed⟩ | ⟨-, htopic, hfeed⟩⟩ :=
      Path.resolve_concat (fun _ => false) hnext (Percent.encodeChars Percent.path last) []
        (pieces.map (Percent.encodeChars Percent.path))
    · rw [htopic, hfeed, List.map_append, List.map_append]
      refine ⟨kept.map String.ofList, .inl ⟨rfl, rfl, ?_⟩⟩
      have hne : last ≠ [] := by
        rintro rfl
        exact absurd hdots (by decide +kernel)
      rw [Ne, hend] at hne
      simpa using hne
    · rw [htopic, hfeed, List.map_append, List.map_append]
      refine ⟨kept.map String.ofList, .inr ⟨String.ofList (Percent.encodeChars Percent.path last),
        rfl, rfl, ?_, fun hnil => ?_⟩⟩
      · rw [String.toList_ofList]
        exact slash_not_mem_encodeChars hplain
      · have htext := congrArg String.toList hnil
        rw [String.toList_ofList] at htext
        exact hend.mp (encodeChars_eq_nil htext)

/-! ### Two URLs side by side -/

/-- The path of a URL ends in a slash that its text does not write. -/
def impliesSlash (s : String) (u : Url) : Bool :=
  u.pathText.toList.getLast? == some '/' && !(significant s).getLast?.any isLeading

/-- A text with a query or a fragment. -/
def Marked (cs : List Char) : Prop := '?' ∈ cs ∨ '#' ∈ cs

instance (cs : List Char) : Decidable (Marked cs) := inferInstanceAs (Decidable (_ ∨ _))

/-- The second URL is on the host of the first one, which that text writes. If the text has neither
query nor fragment and does not end in a blank, the second path is the first one with one segment
more. If it has a query or a fragment, the paths are the same. -/
structure Beside (s : String) (u v : Url) : Prop where
  scheme : v.scheme = u.scheme
  host : v.host = u.host
  number : v.portNumber = u.portNumber
  path : ¬Marked s.toList → gap s = [] →
    v.pathText = u.pathText ++ if impliesSlash s u then "json" else "/json"
  kept : Marked s.toList → v.pathText = u.pathText

lemma pathText_web {u : Url} (hhost : u.host.isSome = true) {path : List String}
    (hpath : u.path = .segments path) : u.pathText = String.join (path.map ("/" ++ ·)) := by
  have hthere : u.host.isNone = false := by
    rw [Option.isNone_eq_false_iff]
    exact hhost
  simp [pathText, hpath, hthere]

lemma join_append (path more : List String) :
    String.join ((path ++ more).map ("/" ++ ·)) =
      String.join (path.map ("/" ++ ·)) ++ String.join (more.map ("/" ++ ·)) := by
  simp [String.join_append]

/-- Behind the same authority the path of the feed is that of the topic with one segment more. -/
lemma pathText_feedPath (hscheme : scheme = "http" ∨ scheme = "https") {u v : Url}
    (hcs : ∀ c r, cs = c :: r → isLeading c = true) (hu : u.host.isSome = true)
    (hv : v.host.isSome = true) (hpath : u.path = .segments (segments scheme cs))
    (hpath' : v.path = .segments (segments scheme (cs ++ feedPath))) {s : String}
    (hs : (significant s).getLast?.any isLeading = cs.getLast?.any isLeading) :
    v.pathText = u.pathText ++ if impliesSlash s u then "json" else "/json" := by
  rw [impliesSlash, hs, pathText_web hu hpath, pathText_web hv hpath']
  obtain ⟨kept, ⟨htopic, hfeed, hend⟩ | ⟨last, htopic, hfeed, hplain, hend⟩⟩ :=
    segments_feedPath hscheme hcs
  · rw [htopic, hfeed, join_append, join_append, hend]
    simp [String.append_assoc]
  · rw [htopic, hfeed, join_append, join_append]
    have hno : ((String.join (kept.map ("/" ++ ·)) ++ "/" ++ last).toList.getLast? == some '/' &&
        !cs.getLast?.any isLeading) = false := by
      by_cases hlast : last = ""
      · simp [hend hlast]
      · obtain ⟨c, hc⟩ := Option.ne_none_iff_exists'.mp
          (mt List.getLast?_eq_none_iff.mp (mt String.toList_eq_nil_iff.mp hlast))
        have hne : c ≠ '/' := fun h => hplain (h ▸ List.mem_of_getLast? hc)
        have hends :
            (String.join (kept.map ("/" ++ ·)) ++ "/" ++ last).toList.getLast? = some c := by
          rw [String.toList_append, List.getLast?_append, hc]
          rfl
        rw [hends]
        exact Bool.and_eq_false_imp.mpr fun hslash => absurd (by simpa using hslash) hne
    have hone : String.join ([last].map ("/" ++ ·)) = "/" ++ last := by simp
    rw [hone, ← String.append_assoc, hno]
    simp [String.append_assoc]

/-- The end of a text is that of its path, or of its authority if it has no path. -/
lemma getLast?_significant {rest : List Char} {s : String}
    (hsplit : splitScheme? (significant s) = some (scheme, rest))
    (hrest : rest.dropWhile isLeading ≠ []) :
    (significant s).getLast?.any isLeading = (behindName rest).getLast?.any isLeading := by
  obtain ⟨front, hfront⟩ := (List.dropWhile_suffix isLeading).trans (suffix_of_splitScheme? hsplit)
  have hwhole : nameOf rest ++ behindName rest = rest.dropWhile isLeading :=
    List.takeWhile_append_dropWhile
  rw [← hfront, List.getLast?_append, ← hwhole, List.getLast?_append]
  rcases hbehind : behindName rest with _ | ⟨d, path⟩
  · rw [hbehind, List.append_nil] at hwhole
    obtain ⟨before, c, hname⟩ := (List.eq_nil_or_concat' (nameOf rest)).resolve_left
      (hwhole ▸ hrest)
    have hc : c ∈ nameOf rest := by simp [hname]
    simpa [hname] using List.mem_takeWhile_imp hc
  · rw [List.getLast?_eq_some_getLast (List.cons_ne_nil d path)]
    rfl

/-- What is put behind an authority does not change it. -/
lemma web_append (hscheme : scheme = "http" ∨ scheme = "https") {gap : List Char}
    (hgap : ∀ c ∈ gap, isMargin c = true) {u v : Url} (hu : parts? scheme cs = some u)
    (hv : parts? scheme (cs ++ (gap ++ feedPath)) = some v) :
    v.scheme = u.scheme ∧ v.host = u.host ∧ v.portNumber = u.portNumber := by
  have hcs := dropWhile_isLeading_ne_nil hscheme hu
  have hspecial : isSpecialScheme scheme = true := by rcases hscheme with rfl | rfl <;> decide
  obtain ⟨hpath, hbare⟩ := nameOf_append hcs (gap ++ feedPath)
  have hname : nameOf (cs ++ (gap ++ feedPath)) = nameOf cs := by
    by_cases hbehind : behindName cs = []
    · have hpos : ∀ c ∈ gap, (!isLeading c) = true := fun c hc =>
        forall_isMargin (P := fun c => (!isLeading c) = true) (by decide) (hgap c hc)
      have hslash : feedPath.takeWhile (!isLeading ·) = [] := by decide
      have hname := (hbare hbehind).1
      rw [List.takeWhile_append_of_pos hpos, hslash, List.append_nil] at hname
      by_cases hnone : gap = []
      · rw [hname, hnone, List.append_nil]
      · -- the blanks would belong to the authority, which ends in none
        rw [parts?_web hscheme, hname, authority?_gap hspecial ⟨hnone, hgap⟩] at hv
        cases hv
    · exact (hpath hbehind).1
  rw [parts?_web hscheme] at hu hv
  rw [hname] at hv
  obtain ⟨⟨username, password, host, number⟩, hauthority, rfl⟩ := Option.map_eq_some_iff.mp hu
  rw [hauthority] at hv
  cases hv
  exact ⟨rfl, rfl, rfl⟩

/-- The front ends before the first mark. -/
lemma front_eq (cs : List Char) : front cs = cs.takeWhile fun c => c ≠ '?' && c ≠ '#' := by
  have hcut (mark : Char) (cs : List Char) : (cut mark cs).1 = cs.takeWhile (· ≠ mark) := by
    have hsplit := cs.takeWhile_append_dropWhile (p := (· ≠ mark))
    unfold cut
    split
    · next hnone =>
      rw [hnone, List.append_nil] at hsplit
      exact hsplit.symm
    · rfl
  rw [front, hcut, hcut, List.takeWhile_takeWhile]
  congr 1
  funext c
  simp

/-- What is put behind a mark does not belong to the front. -/
lemma front_append (hmarked : Marked cs) (more : List Char) : front (cs ++ more) = front cs := by
  rw [front_eq, front_eq, List.takeWhile_append, if_neg]
  intro hlength
  have hwhole := (List.takeWhile_prefix fun c => c ≠ '?' && c ≠ '#').eq_of_length hlength
  rw [List.takeWhile_eq_self_iff] at hwhole
  rcases hmarked with hmem | hmem
  · exact absurd (hwhole _ hmem) (by decide)
  · exact absurd (hwhole _ hmem) (by decide)

lemma front_of_plain (hplain : ¬Marked cs) : front cs = cs := by
  rw [Marked, not_or] at hplain
  rw [front_eq, List.takeWhile_eq_self_iff]
  intro c hc
  have hquery : c ≠ '?' := fun h => hplain.1 (h ▸ hc)
  have hfragment : c ≠ '#' := fun h => hplain.2 (h ▸ hc)
  simp [hquery, hfragment]

lemma mem_dropWhile {p : Char → Bool} (hc : c ∈ cs) (hp : p c = false) : c ∈ cs.dropWhile p := by
  rw [← cs.takeWhile_append_dropWhile (p := p), List.mem_append] at hc
  refine hc.resolve_left fun hmem => ?_
  rw [List.mem_takeWhile_imp hmem] at hp
  cases hp

/-- A mark stands behind the scheme. -/
lemma mem_behind_scheme {s : String} {rest : List Char}
    (hsplit : splitScheme? (significant s) = some (scheme, rest)) (hc : c ∈ s.toList)
    (hmark : c = '?' ∨ c = '#') : c ∈ rest := by
  have hmargin : isMargin c = false := by rcases hmark with rfl | rfl <;> decide
  have hcounts : (!isIgnored c) = true := by rcases hmark with rfl | rfl <;> decide
  have hmem : c ∈ significant s := by
    refine List.mem_filter.mpr ⟨List.mem_reverse.mpr ?_, hcounts⟩
    exact mem_dropWhile (List.mem_reverse.mpr (mem_dropWhile hc hmargin)) hmargin
  obtain ⟨name, heq, hname⟩ := eq_append_of_splitScheme? hsplit
  rw [heq, List.mem_append, List.mem_cons] at hmem
  rcases hmem with hmem | rfl | hmem
  · have hscheme := hname c hmem
    rcases hmark with rfl | rfl <;> cases hscheme
  · rcases hmark with hmark | hmark <;> cases hmark
  · exact hmem

lemma marked_behind_scheme {s : String} {rest : List Char}
    (hsplit : splitScheme? (significant s) = some (scheme, rest)) :
    Marked rest ↔ Marked s.toList := by
  have hsub : ∀ c ∈ rest, c ∈ s.toList := fun c hc =>
    mem_of_mem_significant ((suffix_of_splitScheme? hsplit).subset hc)
  exact ⟨Or.imp (hsub _) (hsub _), Or.imp (mem_behind_scheme hsplit · (.inl rfl))
    (mem_behind_scheme hsplit · (.inr rfl))⟩

/-- Behind a mark the path stays as it is. -/
lemma pathText_congr {u v : Url} (hhost : v.host = u.host) (hpath : v.path = u.path) :
    v.pathText = u.pathText := by
  rw [pathText, pathText, hhost, hpath]

/-- **The feed of a topic lies beside it.** -/
theorem beside_feedAddress {s : String} {u v : Url} (hu : ofText? s = some u)
    (hscheme : u.scheme = "http" ∨ u.scheme = "https") (hv : ofText? (s ++ "/json") = some v) :
    Beside s u v := by
  obtain ⟨scheme, rest, w, hsplit, hw, huscheme, huhost, hunumber, hupath⟩ := exists_parts hu
  obtain ⟨scheme', rest', w', hsplit', hw', hvscheme, hvhost, hvnumber, hvpath⟩ := exists_parts hv
  have hs : s.toList.dropWhile isMargin ≠ [] := by
    intro hnil
    simp [significant, hnil, splitScheme?] at hsplit
  rw [significant_append hs, List.append_assoc, splitScheme?_append hsplit] at hsplit'
  obtain ⟨rfl, rfl⟩ := Prod.mk.inj (Option.some.inj hsplit')
  rw [huscheme, scheme_of_parts? hw] at hscheme
  have hmarks := marked_behind_scheme hsplit
  by_cases hmarked : Marked s.toList
  · -- the text stands in the query or in the fragment
    rw [front_append (hmarks.mpr hmarked), hw] at hw'
    cases hw'
    have hhost := hvhost.trans huhost.symm
    exact ⟨hvscheme.trans huscheme.symm, hhost, hvnumber.trans hunumber.symm,
      fun hplain => absurd hmarked hplain,
      fun _ => pathText_congr hhost (hvpath.trans hupath.symm)⟩
  · have hgap : ∀ c ∈ gap s, isMargin c = true := fun c hc =>
      List.mem_rtakeWhile_imp (List.mem_of_mem_filter hc)
    have hplain : ¬Marked rest := mt hmarks.mp hmarked
    have hplain' : ¬Marked (rest ++ (gap s ++ feedPath)) := by
      have hquery : '?' ∉ gap s := fun h => absurd (hgap _ h) (by decide)
      have hfragment : '#' ∉ gap s := fun h => absurd (hgap _ h) (by decide)
      rw [Marked, not_or] at hplain ⊢
      simp only [List.mem_append, not_or]
      exact ⟨⟨hplain.1, hquery, by decide⟩, hplain.2, hfragment, by decide⟩
    rw [front_of_plain hplain] at hw
    rw [front_of_plain hplain'] at hw'
    obtain ⟨hsame, hhost, hnumber⟩ := web_append hscheme hgap hw hw'
    refine ⟨by rw [hvscheme, huscheme, hsame], by rw [hvhost, huhost, hhost],
      by rw [hvnumber, hunumber, hnumber], fun _ hnone => ?_, fun h => absurd h hmarked⟩
    rw [hnone, List.nil_append] at hw'
    have hbody := dropWhile_isLeading_ne_nil hscheme hw
    rw [parts?_web hscheme] at hw hw'
    rw [(nameOf_feedPath hbody).2] at hw'
    obtain ⟨⟨_, _, host, _⟩, -, rfl⟩ := Option.map_eq_some_iff.mp hw
    obtain ⟨⟨_, _, host', _⟩, -, rfl⟩ := Option.map_eq_some_iff.mp hw'
    refine pathText_feedPath hscheme (fun c r hbehind => ?_) (by rw [huhost]; rfl)
      (by rw [hvhost]; rfl) hupath hvpath (getLast?_significant hsplit hbody)
    have hlast := List.head?_dropWhile_not (!isLeading ·) (rest.dropWhile isLeading)
    rw [← behindName, hbehind] at hlast
    simpa using hlast

end Url

/-! ### Requests -/

open Network Request

namespace Request

/-- What is asked for changes nothing about where it is asked for. -/
lemma onUrl_endpoint (method : Method) (url : Url) (spec : Spec) (body : Bytes) :
    (onUrl method url spec body).url.scheme = url.scheme ∧
      (onUrl method url spec body).url.host = url.host ∧
      (onUrl method url spec body).url.portNumber = url.portNumber ∧
      (onUrl method url spec body).url.pathText = url.pathText := by
  have hpairs : ∀ u : Url, (u.addPairs spec.query).scheme = u.scheme ∧
      (u.addPairs spec.query).host = u.host ∧ (u.addPairs spec.query).portNumber = u.portNumber ∧
      (u.addPairs spec.query).pathText = u.pathText := by
    intro u
    unfold Url.addPairs
    split <;> exact ⟨rfl, rfl, rfl, rfl⟩
  unfold onUrl
  split
  · exact hpairs url.withoutUser
  · exact hpairs url

end Request

namespace Network

/-- A request for a topic and one for its feed go to places beside one another. -/
lemma Builds.beside {url : String} {method method' : Method} {options asked : List RequestOption}
    {body body' : Bytes} {r r' : Request} (h : Builds method url options body r)
    (h' : Builds method' (feedAddress url) asked body' r') : Url.Beside url r.url r'.url := by
  obtain ⟨spec, -, hr⟩ := h
  obtain ⟨spec', -, hr'⟩ := h'
  obtain ⟨u, hu, -, hsend, -, rfl⟩ := ofSpec_eq_ok_iff.mp hr
  obtain ⟨v, hv, -, -, -, rfl⟩ := ofSpec_eq_ok_iff.mp hr'
  have hscheme : u.scheme = "http" ∨ u.scheme = "https" := by simpa [isSendable] using hsend
  obtain ⟨hus, huh, hun, hup⟩ := onUrl_endpoint method u spec body
  obtain ⟨hvs, hvh, hvn, hvp⟩ := onUrl_endpoint method' v spec' body'
  have hbeside := Url.beside_feedAddress hu hscheme hv
  refine ⟨?_, ?_, ?_, fun hplain hnone => ?_, fun hmarked => ?_⟩
  · rw [hus, hvs, hbeside.scheme]
  · rw [huh, hvh, hbeside.host]
  · rw [hun, hvn, hbeside.number]
  · have himplied :
        Url.impliesSlash url (onUrl method u spec body).url = Url.impliesSlash url u := by
      rw [Url.impliesSlash, hup]
      rfl
    rw [hup, hvp, himplied, hbeside.path hplain hnone]
  · rw [hup, hvp, hbeside.kept hmarked]

end Network

namespace Client

/-- **Publishing and listening address the same topic,** in whatever notation it is given. The
request that publishing sends goes to the URL of the topic. Those of a poll and of each attempt to
follow the topic go to the same host by the same scheme and number. If the URL has neither query nor
fragment and does not end in a blank, they ask for the path of the first one with `json` as one
segment more. Its slash is written, unless the path ends in one that the URL implies. If the URL has
a query or a fragment, they ask for the path of the first one as it is. -/
theorem feed_beside_topic {c : Client} {topic url : String} {options : List RequestOption}
    {body : Bytes} {r : Request} (hurl : c.resolve topic = .ok url)
    (hr : Builds .post url options body r) :
    (c.publish topic body options).1.hub.network.requests = (c.hub.network.send r).1.requests ∧
    (∀ (asked : List RequestOption) (r' : Request),
      Builds .get (feedAddress url) (asked ++ [.poll]) [] r' →
        Url.Beside url r.url r'.url ∧
          (c.poll topic asked).1.hub.network.requests = (c.hub.network.send r').1.requests) ∧
    ∀ (l : Loop) (hub : Hub) (r' : Request), l.who.topicUrl = url → l.canceled = false →
      l.phase = .attempting .connecting →
      Builds .get (feedAddress url) l.who.options [] r' →
        Url.Beside url r.url r'.url ∧
          (l.step hub).1.network.requests = (hub.network.send r').1.requests := by
  refine ⟨?_, fun asked r' hr' => ⟨hr.beside hr', ?_⟩, fun l hub r' htopic hc hp hr' =>
    ⟨hr.beside hr', ?_⟩⟩
  · rw [← publish_sends (hr.sends c.hub.network), Client.publish, hurl]
  · rw [← poll_sends (hr'.sends c.hub.network), Client.poll, hurl]
  · subst htopic
    exact step_sends hc hp hr'

/-- A request without options to a host. -/
def plainRequest (portNumber : Option Nat) (path : List String) : Request where
  method := .post
  url := { scheme := "https", host := some (.domain "h"), portNumber, path := .segments path }
  headers := []

theorem feed_beside_host_and_path :
    (∃ r, Builds .get (feedAddress "https://h:81/a/t") [.poll] [] r ∧
      r.url.portNumber = some 81 ∧ r.url.pathText = "/a/t/json" ∧
      ((new {} droppingHost).poll "h:81/a/t" []).1.hub.network.requests = [r]) ∧
    ∃ r, Builds .get (feedAddress "https://h/a/..") [.poll] [] r ∧ r.url.pathText = "/json" := by
  have haccepted : RequestOption.firstFault? [.poll] = none := by decide +kernel
  have hfit : RequestOption.Fit [.poll] := by decide +kernel
  have hplain : Builds .post "https://h:81/a/t" [] [] (plainRequest (some 81) ["a", "t"]) :=
    ⟨{}, rfl, by decide +kernel⟩
  have hdots : Builds .post "https://h/a/.." [] [] (plainRequest none [""]) :=
    ⟨{}, rfl, by decide +kernel⟩
  constructor
  · obtain ⟨r, hr⟩ := exists_builds haccepted
      (by decide +kernel : Askable (feedAddress "https://h:81/a/t")) hfit .get []
    have hurl : (new {} droppingHost).resolve "h:81/a/t" = .ok "https://h:81/a/t" := by
      decide +kernel
    obtain ⟨hbeside, hsent⟩ := (feed_beside_topic hurl hplain).2.1 [] r hr
    refine ⟨r, hr, hbeside.number, ?_, hsent⟩
    rw [hbeside.path (by decide) (by decide +kernel)]
    decide +kernel
  · obtain ⟨r, hr⟩ := exists_builds haccepted
      (by decide +kernel : Askable (feedAddress "https://h/a/..")) hfit .get []
    have hurl : (new {} droppingHost).resolve "h/a/.." = .ok "https://h/a/.." := by
      decide +kernel
    obtain ⟨hbeside, -⟩ := (feed_beside_topic hurl hdots).2.1 [] r hr
    refine ⟨r, hr, ?_⟩
    rw [hbeside.path (by decide) (by decide +kernel)]
    decide +kernel

/-- The paths that publishing to a topic and polling it ask for. -/
def askedPaths (topic : String) : List String × List String :=
  (((new {} droppingHost).publish topic [] []).1.hub.network.paths,
    ((new {} droppingHost).poll topic []).1.hub.network.paths)

/-- The path of the poll is the other one with this text behind it. -/
def Appends (text topic : String) : Prop :=
  (askedPaths topic).2 = (askedPaths topic).1.map (· ++ text)

instance (text topic : String) : Decidable (Appends text topic) :=
  inferInstanceAs (Decidable (_ = _))

/-- The path of a feed is not always the path of its topic with the same text behind it. -/
theorem feed_path_not_appended :
    askedPaths "http://h" = (["/"], ["/json"]) ∧ ¬Appends "/json" "http://h" ∧
      ¬Appends "/json" "http://h/a/.." ∧ ¬Appends "/json" "http://h/t?x=1" ∧
      ¬Appends "/json" "http://h/t#x" ∧ ¬Appends "/json" "http://h/t " := by
  decide +kernel

end Client

end TopicFeed
