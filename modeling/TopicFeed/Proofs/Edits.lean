import Mathlib.Data.List.Induction
import TopicFeed.Proofs.Options
import TopicFeed.Request.Edit

/-!
The last setting of a name wins.

A specification is a pair of maps, of headers by their lower-case name and of query parameters in
the order of their last setting. Each call that is not refused speaks about at most one header and
one query parameter, and leaves everything else as it was; so what a name reads is what the last
call about it says.
-/

namespace TopicFeed.Request

/-! ### One call -/

namespace Spec

variable {spec next : Spec} {name other value : String} {e : Edit}

lemma storedHeader?_congr (h : Header.isSame name other = true) :
    spec.storedHeader? name = spec.storedHeader? other := by
  rw [storedHeader?, storedHeader?, Header.name?_congr h]

/-- A header is read back exactly if it is visible ASCII. -/
lemma header?_eq_some_iff : spec.header? name = some value ↔
    spec.storedHeader? name = some value ∧
      ∀ ch ∈ value.toList, ch = '\t' ∨ (' ' ≤ ch ∧ ch ≤ '~') := by
  have hlast : ∀ ch : Char, ch < '\x7F' ↔ ch ≤ '~' := fun ch => Nat.lt_succ_iff
  simp [header?, Option.filter_eq_some_iff, Header.isVisible, hlast]

lemma header?_congr (h : next.storedHeader? name = spec.storedHeader? other) :
    next.header? name = spec.header? other := by
  rw [header?, h, header?]

/-- If only one key reads otherwise, then only the spellings of its name do. -/
lemma storedHeader?_of_key {key : String} {read : Option String}
    (hname : Header.name? name = some key) (hself : next.headers.get? key = read)
    (hother : ∀ k ≠ key, next.headers.get? k = spec.headers.get? k) (other : String) :
    next.storedHeader? other =
      if Header.isSame name other then read else spec.storedHeader? other := by
  split
  · next hsame =>
    rw [storedHeader?, (Header.name?_eq_iff hname).mpr hsame]
    exact hself
  · next hdiffer =>
    rw [← Header.name?_eq_iff hname] at hdiffer
    unfold storedHeader?
    rcases hk : Header.name? other with _ | k
    · rfl
    · exact hother k fun heq => hdiffer (heq ▸ hk)

lemma storedHeader?_setHeader (h : spec.setHeader name value = (next, none)) (other : String) :
    next.storedHeader? other =
      if Header.isSame name other then some value else spec.storedHeader? other := by
  rcases setHeader_cases spec name value with ⟨f, -, hset⟩ | ⟨key, hname, -, -, hset⟩
  · rw [hset] at h
    cases h
  · rw [hset] at h
    cases h
    exact storedHeader?_of_key hname (Named.get?_set_self key value spec.headers)
      (fun k hk => Named.get?_set_of_ne hk value spec.headers) other

/-- What removing a header does. -/
lemma removeHeader_cases (spec : Spec) (name : String) :
    (Header.name? name = none ∧ spec.removeHeader name = spec) ∨
    ∃ key, Header.name? name = some key ∧
      (spec.removeHeader name).headers = spec.headers.erase key := by
  unfold removeHeader
  rcases Header.name? name with _ | key
  · exact .inl ⟨rfl, rfl⟩
  · exact .inr ⟨key, rfl, rfl⟩

lemma storedHeader?_removeHeader (spec : Spec) (name other : String) :
    (spec.removeHeader name).storedHeader? other =
      if Header.isSame name other then none else spec.storedHeader? other := by
  rcases removeHeader_cases spec name with ⟨hname, hremove⟩ | ⟨key, hname, hremove⟩
  · -- nothing is removed, and nothing can have been there
    rw [hremove]
    split
    · next hsame =>
      rw [storedHeader?, ← Header.name?_congr hsame, hname]
      rfl
    · rfl
  · refine storedHeader?_of_key hname ?_ (fun k hk => ?_) other
    · rw [hremove]
      exact Named.get?_erase_self key spec.headers
    · rw [hremove]
      exact Named.get?_erase_of_ne hk spec.headers

lemma setHeader_query (h : spec.setHeader name value = (next, none)) : next.query = spec.query := by
  rcases setHeader_cases spec name value with ⟨f, -, hset⟩ | ⟨key, -, -, -, hset⟩ <;>
    rw [hset] at h <;> cases h
  rfl

lemma removeHeader_query (spec : Spec) (name : String) :
    (spec.removeHeader name).query = spec.query := by
  unfold removeHeader
  split <;> rfl

/-- Giving credentials takes the header away that would carry them. -/
lemma setCredentials_headers (spec : Spec) (c : Credentials) :
    (spec.setCredentials c).headers = (spec.removeHeader Header.authorization).headers := by
  have hname : Header.name? Header.authorization = some Header.authorization := by decide +kernel
  rw [removeHeader, hname]
  rfl

/-- **A call that is refused leaves the specification as it was.** -/
lemma edit_fst_of_refused (h : (spec.edit e).2 ≠ none) : (spec.edit e).1 = spec := by
  cases e with
  | setHeader n v => exact setHeader_fst_of_refused h
  | removeHeader n => exact absurd rfl h
  | setQuery n v => exact absurd rfl h
  | setCredentials c => exact absurd rfl h
  | option o => exact apply_fst_of_refused h

lemma eq_of_refused {f : OptionFault} (h : spec.edit e = (next, some f)) : next = spec := by
  have hrefused : (spec.edit e).2 ≠ none := by simp [h]
  have hsame := edit_fst_of_refused hrefused
  rwa [h] at hsame

/-- **What a call does** that is not refused: it sets a header, or takes one away, or sets a query
parameter. -/
lemma edit_cases (h : spec.edit e = (next, none)) :
    (∃ n v, spec.setHeader n v = (next, none) ∧ e.setting? = none ∧
      ∀ name, e.header? name = if Header.isSame n name then some (some v) else none) ∨
    (∃ n, next.headers = (spec.removeHeader n).headers ∧ next.query = spec.query ∧
      e.setting? = none ∧
      ∀ name, e.header? name = if Header.isSame n name then some none else none) ∨
    ∃ n v, next = spec.setQuery n v ∧ e.setting? = some (n, v) ∧ ∀ name, e.header? name = none := by
  cases e with
  | setHeader n v => exact .inl ⟨n, v, h, rfl, fun _ => rfl⟩
  | removeHeader n =>
    cases h
    exact .inr (.inl ⟨n, rfl, removeHeader_query spec n, rfl, fun _ => rfl⟩)
  | setQuery n v =>
    cases h
    exact .inr (.inr ⟨n, v, rfl, rfl, fun _ => rfl⟩)
  | setCredentials c =>
    cases h
    exact .inr (.inl ⟨_, setCredentials_headers spec c, rfl, rfl, fun _ => rfl⟩)
  | option o =>
    cases o with
    | header n v => exact .inl ⟨n, v, h, rfl, fun _ => rfl⟩
    | removeHeader n =>
      cases h
      exact .inr (.inl ⟨n, rfl, removeHeader_query spec n, rfl, fun _ => rfl⟩)
    | query n v =>
      cases h
      exact .inr (.inr ⟨n, v, rfl, rfl, fun _ => rfl⟩)
    | priority level =>
      rw [edit, apply] at h
      split at h
      · exact .inl ⟨"X-Priority", level, h, rfl, fun _ => rfl⟩
      · cases h
    | since start =>
      rw [edit, apply] at h
      split at h
      · cases h
        exact .inr (.inr ⟨"since", start, rfl, rfl, fun _ => rfl⟩)
      · cases h
    | auth credentials =>
      rcases credentials with _ | c
      · cases h
        exact .inr (.inl ⟨_, rfl, removeHeader_query spec _, rfl, fun _ => rfl⟩)
      · cases h
        exact .inr (.inl ⟨_, setCredentials_headers spec c, rfl, rfl, fun _ => rfl⟩)

/-- **A call and a header:** what the call says, or else what was there before. -/
lemma storedHeader?_edit (h : spec.edit e = (next, none)) (name : String) :
    next.storedHeader? name = (e.header? name).getD (spec.storedHeader? name) := by
  rcases edit_cases h with
    ⟨n, v, hset, -, hview⟩ | ⟨n, hremove, -, -, hview⟩ | ⟨n, v, rfl, -, hview⟩
  · rw [storedHeader?_setHeader hset, hview]
    split <;> rfl
  · rw [storedHeader?, hremove, ← storedHeader?, storedHeader?_removeHeader, hview]
    split <;> rfl
  · rw [hview]
    rfl

/-- **A call and the query:** the parameter that it sets goes to the end. -/
lemma query_edit (h : spec.edit e = (next, none)) :
    next.query = e.setting?.elim spec.query fun p => spec.query.set p.1 p.2 := by
  rcases edit_cases h with
    ⟨n, v, hset, hview, -⟩ | ⟨n, -, hsame, hview, -⟩ | ⟨n, v, rfl, hview, -⟩
  · rw [hview, setHeader_query hset]
    rfl
  · rw [hview, hsame]
    rfl
  · rw [hview]
    rfl

lemma query?_edit (h : spec.edit e = (next, none)) (name : String) :
    next.query? name = (e.query? name).or (spec.query? name) := by
  rw [query?, query_edit h, Edit.query?, query?]
  rcases e.setting? with _ | ⟨n, v⟩
  · rfl
  · by_cases hn : n = name
    · subst hn
      simp [Named.get?_set_self]
    · simp [Named.get?_set_of_ne (Ne.symm hn), hn]

/-- The headers form a map from names in their kept form to values. -/
structure Tidy (spec : Spec) : Prop where
  nodup : spec.headers.names.Nodup
  valid : ∀ key value, (key, value) ∈ spec.headers →
    Header.name? key = some key ∧ Header.isValue value = true

lemma tidy_empty : ({} : Spec).Tidy := ⟨List.nodup_nil, fun _ _ h => nomatch h⟩

lemma Tidy.edit (hspec : spec.Tidy) (h : spec.edit e = (next, none)) : next.Tidy := by
  rcases edit_cases h with ⟨n, v, hset, -, -⟩ | ⟨n, hremove, -, -, -⟩ | ⟨n, v, rfl, -, -⟩
  · rcases setHeader_cases spec n v with ⟨f, -, hcase⟩ | ⟨key, hname, hvalue, -, hcase⟩ <;>
      rw [hcase] at hset <;> cases hset
    refine ⟨Named.nodup_names_set hspec.nodup key v, fun k w hmem => ?_⟩
    rcases List.mem_append.mp hmem with hold | hnew
    · exact hspec.valid k w (List.mem_of_mem_filter hold)
    · cases List.mem_singleton.mp hnew
      exact ⟨Header.name?_key hname, hvalue⟩
  · rcases removeHeader_cases spec n with ⟨-, hcase⟩ | ⟨key, -, hcase⟩
    · rw [hcase] at hremove
      exact ⟨hremove ▸ hspec.nodup, hremove ▸ hspec.valid⟩
    · rw [hcase] at hremove
      refine ⟨hremove ▸ Named.nodup_names_erase hspec.nodup key, fun k w hmem => ?_⟩
      exact hspec.valid k w (List.mem_of_mem_filter (hremove ▸ hmem))
  · exact ⟨hspec.nodup, hspec.valid⟩

end Spec

/-! ### Many calls -/

lemma Edit.latest_concat {α : Type} (view : Edit → Option α) (edits : List Edit) (e : Edit) :
    latest view (edits ++ [e]) = (view e).or (latest view edits) := by
  rw [latest, List.reverse_concat, List.findSome?_cons]
  rcases view e with _ | a <;> rfl

/-- One more setting goes to the end, and takes away the earlier one of its name. -/
lemma standing_concat (settings : List (String × String)) (name value : String) :
    standing (settings ++ [(name, value)]) = (standing settings).set name value := by
  induction settings with
  | nil => rfl
  | cons p rest ih =>
    have hnames : p.1 ∈ Named.names (rest ++ [(name, value)]) ↔
        p.1 ∈ Named.names rest ∨ p.1 = name := by
      simp [Named.names]
    rw [List.cons_append, standing, standing, ih]
    by_cases hlater : p.1 ∈ Named.names rest
    · rw [if_pos (hnames.mpr (.inl hlater)), if_pos hlater]
    · rw [if_neg hlater]
      by_cases hn : p.1 = name
      · rw [if_pos (hnames.mpr (.inr hn))]
        simp [Named.set, Named.erase, hn]
      · rw [if_neg (by simp [hnames, hlater, hn])]
        simp [Named.set, Named.erase, hn]

lemma nodup_names_standing (settings : List (String × String)) :
    (standing settings).names.Nodup := by
  induction settings using List.reverseRecOn with
  | nil => exact List.nodup_nil
  | append_singleton settings p ih =>
    rw [standing_concat]
    exact Named.nodup_names_set ih p.1 p.2

/-- A specification tells nothing but what the calls said. -/
structure Edited.Kept (e : Edited) : Prop where
  tidy : e.spec.Tidy
  header : ∀ name, e.spec.storedHeader? name = (Edit.latest (Edit.header? name) e.accepted).join
  value : ∀ name, e.spec.query? name = Edit.latest (Edit.query? name) e.accepted
  query : e.spec.query = standing (e.accepted.filterMap Edit.setting?)

lemma Edited.Kept.step {e : Edited} (h : e.Kept) (edit : Edit) : (e.step edit).Kept := by
  unfold Edited.step
  split
  · next after hnext =>
    refine ⟨h.tidy.edit hnext, fun name => ?_, fun name => ?_, ?_⟩
    · rw [Spec.storedHeader?_edit hnext, Edit.latest_concat, h.header]
      rcases edit.header? name with _ | said <;> rfl
    · rw [Spec.query?_edit hnext, Edit.latest_concat, h.value]
    · rw [Spec.query_edit hnext, List.filterMap_append, h.query]
      rcases hview : edit.setting? with _ | ⟨n, v⟩
      · simp [hview]
      · simp [hview, standing_concat]
  · next reached f hrefused =>
    obtain rfl := Spec.eq_of_refused hrefused
    exact h

lemma kept_edited (edits : List Edit) : (edited edits).Kept := by
  induction edits using List.reverseRecOn with
  | nil =>
    refine ⟨Spec.tidy_empty, fun name => ?_, fun _ => rfl, rfl⟩
    show (Header.name? name).bind _ = none
    rcases Header.name? name with _ | key <;> rfl
  | append_singleton edits edit ih =>
    rw [edited, List.foldl_concat]
    exact ih.step edit

/-- **The last setting of a name wins.** Behind any list of calls on a fresh specification, a header
is present exactly if the last call about its name that was not refused was a setting, with the
value of that setting; it is read back exactly if that is visible ASCII, in every spelling of the
name. Each header stands once, under its name in lower case. A query parameter has the value that it
was given last; each stands once, in the order of the last settings. A call that is refused changes
nothing, and a call about one name never changes what another one reads. -/
theorem last_setting_wins (edits : List Edit) :
    let e := edited edits
    (∀ name value, e.spec.storedHeader? name = some value ↔
      Edit.latest (Edit.header? name) e.accepted = some (some value)) ∧
    (∀ name value, e.spec.header? name = some value ↔
      Edit.latest (Edit.header? name) e.accepted = some (some value) ∧
        ∀ ch ∈ value.toList, ch = '\t' ∨ (' ' ≤ ch ∧ ch ≤ '~')) ∧
    (∀ name other, Header.isSame name other = true →
      e.spec.storedHeader? name = e.spec.storedHeader? other ∧
        e.spec.header? name = e.spec.header? other) ∧
    (e.spec.headers.names.Nodup ∧ ∀ key value, (key, value) ∈ e.spec.headers →
      Header.name? key = some key ∧ Header.isValue value = true) ∧
    (∀ name, e.spec.query? name = Edit.latest (Edit.query? name) e.accepted) ∧
    (e.spec.query.names.Nodup ∧ e.spec.query = standing (e.accepted.filterMap Edit.setting?)) ∧
    ∀ (spec : Spec) (edit : Edit),
      ((spec.edit edit).2 ≠ none → (spec.edit edit).1 = spec) ∧ ∀ name,
      (edit.header? name = none →
        (spec.edit edit).1.storedHeader? name = spec.storedHeader? name ∧
          (spec.edit edit).1.header? name = spec.header? name) ∧
      (edit.query? name = none → (spec.edit edit).1.query? name = spec.query? name) := by
  intro e
  have h : e.Kept := kept_edited edits
  have hstored : ∀ name value, e.spec.storedHeader? name = some value ↔
      Edit.latest (Edit.header? name) e.accepted = some (some value) := by
    intro name value
    rw [h.header, Option.join_eq_some_iff]
  refine ⟨hstored, fun name value => ?_, fun name other hsame => ?_, ⟨h.tidy.nodup, h.tidy.valid⟩,
    h.value, ⟨h.query ▸ nodup_names_standing _, h.query⟩,
    fun spec edit => ⟨Spec.edit_fst_of_refused, fun name => ?_⟩⟩
  · rw [Spec.header?_eq_some_iff, hstored]
  · have hstored : e.spec.storedHeader? name = e.spec.storedHeader? other :=
      Spec.storedHeader?_congr hsame
    exact ⟨hstored, Spec.header?_congr hstored⟩
  · rcases hedit : spec.edit edit with ⟨next, _ | f⟩
    · constructor
      · intro hsilent
        have hstored := Spec.storedHeader?_edit hedit name
        rw [hsilent, Option.getD_none] at hstored
        exact ⟨hstored, Spec.header?_congr hstored⟩
      · intro hsilent
        rw [Spec.query?_edit hedit, hsilent, Option.none_or]
    · rw [Spec.eq_of_refused hedit]
      exact ⟨fun _ => ⟨rfl, rfl⟩, fun _ => rfl⟩

/-- A title that is set twice, and once more in vain; and a query parameter that is set twice. -/
def retitled : List Edit :=
  [.setHeader "X-Title" "a", .option (.header "x-title" "b"), .setHeader "X-TITLE" "c\nd",
    .setQuery "k" "1", .setQuery "l" "2", .option (.query "k" "3")]

theorem last_setting_wins_retitled :
    (edited retitled).spec.header? "x-Title" = some "b" ∧
    (edited retitled).spec.query = [("l", "2"), ("k", "3")] := by
  obtain ⟨-, hheader, -, -, -, ⟨-, hquery⟩, -⟩ := last_setting_wins retitled
  have hvisible : ∀ ch ∈ "b".toList, ch = '\t' ∨ (' ' ≤ ch ∧ ch ≤ '~') := by
    intro ch hch
    obtain rfl : ch = 'b' := List.mem_singleton.mp hch
    decide
  exact ⟨(hheader _ _).mpr ⟨by decide +kernel, hvisible⟩, hquery.trans (by decide +kernel)⟩

end TopicFeed.Request
