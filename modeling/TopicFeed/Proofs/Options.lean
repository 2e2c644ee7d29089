import Mathlib.Data.List.Induction
import TopicFeed.Proofs.Headers
import TopicFeed.Request.Option

/-!
Which options are refused, and why.

Whether an option is refused, and for which reason, can be read off the option alone. So a list of
options is refused for the reason of its first bad option, whatever it is applied to.
-/

namespace TopicFeed

open Request

/-- Why a header is refused, if it is. The name is looked at first. -/
def Request.Header.fault? (name value : String) : Option OptionFault :=
  match Header.name? name with
  | none => some (.headerName name)
  | some key => if Header.isValue value then none else some (.headerValue key value)

namespace RequestOption

/-- Why an option is refused, if it is. -/
def fault? : RequestOption → Option OptionFault
  | .header name value => Header.fault? name value
  | .priority level => if isPriority level then none else some (.priority level)
  | .since start => if isSince start then none else some (.since start)
  | .removeHeader _ | .query _ _ | .auth _ => none

/-- Why a list of options is refused, if it is: for the reason of its first bad option. -/
def firstFault? (options : List RequestOption) : Option OptionFault := options.findSome? fault?

lemma firstFault?_eq_none_iff {options : List RequestOption} :
    firstFault? options = none ↔ ∀ o ∈ options, o.fault? = none :=
  List.findSome?_eq_none_iff

/-- Asking for a poll is never refused, so it changes no reason. -/
lemma firstFault?_poll (options : List RequestOption) :
    firstFault? (options ++ [.poll]) = firstFault? options := by
  simp [firstFault?, poll, fault?]

/-! ### A level of priority is a header value -/

lemma isValueChar_of_isAlphanumeric {c : Char} (h : Ascii.isAlphanumeric c = true) :
    Header.isValueChar c = true := by
  have hspace : ' ' ≤ c ∧ c ≤ 'z' := by
    simp only [Ascii.isAlphanumeric, Bool.or_eq_true, Bool.and_eq_true, decide_eq_true_eq] at h
    rcases h with (⟨h1, h2⟩ | ⟨h1, h2⟩) | ⟨h1, h2⟩ <;>
      exact ⟨Char.le_trans (by decide) h1, Char.le_trans h2 (by decide)⟩
  have hdelete : c ≠ '\x7F' := by
    rintro rfl
    exact absurd hspace.2 (by decide)
  simp [Header.isValueChar, hspace.1, hdelete]

lemma isValue_of_isPriority {level : String} (h : isPriority level = true) :
    Header.isValue level = true := by
  have hlevels : ∀ l ∈ priorityLevels, l.toList.all Ascii.isAlphanumeric = true := by decide
  have hlevel := hlevels _ (List.contains_iff_mem.mp h)
  simp only [String.toList_ofList, List.all_map, List.all_eq_true, Function.comp_apply,
    Ascii.isAlphanumeric_lower] at hlevel
  exact List.all_eq_true.mpr fun c hc => isValueChar_of_isAlphanumeric (hlevel c hc)

end RequestOption

namespace Request.Spec

open RequestOption

/-! ### One option -/

/-- What setting a header does. -/
lemma setHeader_cases (spec : Spec) (name value : String) :
    (∃ f, Header.fault? name value = some f ∧ spec.setHeader name value = (spec, some f)) ∨
    ∃ key, Header.name? name = some key ∧ Header.isValue value = true ∧
      Header.fault? name value = none ∧
      spec.setHeader name value = ({ spec with headers := spec.headers.set key value }, none) := by
  unfold setHeader Header.fault?
  rcases hname : Header.name? name with _ | key
  · exact .inl ⟨_, rfl, rfl⟩
  · by_cases hvalue : Header.isValue value = true
    · exact .inr ⟨key, rfl, hvalue, by simp [hvalue], by simp [hvalue]⟩
    · exact .inl ⟨.headerValue key value, by simp [hvalue], by simp [hvalue]⟩

/-- **Whether an option is refused, and why, depends on the option alone.** -/
theorem apply_snd (spec : Spec) (o : RequestOption) : (spec.apply o).2 = o.fault? := by
  cases o with
  | header name value =>
    rcases setHeader_cases spec name value with ⟨f, hf, hset⟩ | ⟨key, -, -, hf, hset⟩
    · rw [apply, fault?, hf, hset]
    · rw [apply, fault?, hf, hset]
  | priority level =>
    by_cases hp : isPriority level = true
    · have hvalue := isValue_of_isPriority hp
      have hname : Header.name? "X-Priority" = some "x-priority" := by decide +kernel
      simp [apply, fault?, hp, setHeader, hname, hvalue]
    · simp [apply, fault?, hp]
  | since start => by_cases hs : isSince start = true <;> simp [apply, fault?, hs]
  | removeHeader name => rfl
  | query name value => rfl
  | auth credentials => rcases credentials with _ | c <;> rfl

lemma setHeader_fst_of_refused {spec : Spec} {name value : String}
    (h : (spec.setHeader name value).2 ≠ none) : (spec.setHeader name value).1 = spec := by
  rcases setHeader_cases spec name value with ⟨f, -, hset⟩ | ⟨key, -, -, -, hset⟩
  · rw [hset]
  · rw [hset] at h
    exact absurd rfl h

/-- **An option that is refused leaves the specification as it was,** of whichever kind it is: all
that is checked is checked before something is changed. -/
theorem apply_fst_of_refused {spec : Spec} {o : RequestOption} (h : (spec.apply o).2 ≠ none) :
    (spec.apply o).1 = spec := by
  cases o with
  | header name value => exact setHeader_fst_of_refused h
  | priority level =>
    rw [apply] at h ⊢
    split at h
    · next hp =>
      rw [if_pos hp]
      exact setHeader_fst_of_refused h
    · next hp => rw [if_neg hp]
  | since start =>
    rw [apply] at h ⊢
    split at h
    · exact absurd rfl h
    · next hs => rw [if_neg hs]
  | removeHeader name => exact absurd rfl h
  | query name value => exact absurd rfl h
  | auth credentials => rcases credentials with _ | c <;> exact absurd rfl h

/-- What applying an option comes to: it is refused and changes nothing, or it is not refused. -/
lemma apply_cases (spec : Spec) (o : RequestOption) :
    (∃ f, o.fault? = some f ∧ spec.apply o = (spec, some f)) ∨
    ∃ next, o.fault? = none ∧ spec.apply o = (next, none) := by
  have hsnd := apply_snd spec o
  rcases hf : o.fault? with _ | f
  · exact .inr ⟨(spec.apply o).1, rfl, Prod.ext rfl (hsnd.trans hf)⟩
  · have hrefused : (spec.apply o).2 = some f := hsnd.trans hf
    exact .inl ⟨f, rfl, Prod.ext (apply_fst_of_refused (by simp [hrefused])) hrefused⟩

lemma fault?_eq_none_of_apply {spec next : Spec} {o : RequestOption}
    (h : spec.apply o = (next, none)) : o.fault? = none := by
  rw [← apply_snd spec o, h]

/-! ### Many options -/

/-- **Options stop at the first bad one,** whatever they are applied to. -/
theorem applyAll_snd (spec : Spec) (options : List RequestOption) :
    (spec.applyAll options).2 = firstFault? options := by
  induction options generalizing spec with
  | nil => rfl
  | cons o rest ih =>
    rw [firstFault?, List.findSome?_cons, applyAll]
    rcases apply_cases spec o with ⟨f, hf, ho⟩ | ⟨next, hf, ho⟩
    · rw [hf, ho]
    · rw [hf, ho]
      exact ih next

lemma ofOptions_eq_error_iff {options : List RequestOption} {f : OptionFault} :
    ofOptions options = .error f ↔ firstFault? options = some f := by
  rw [← applyAll_snd {} options, ofOptions]
  rcases applyAll {} options with ⟨spec, _ | f'⟩ <;> simp

lemma firstFault?_of_ofOptions {options : List RequestOption} {spec : Spec}
    (h : ofOptions options = .ok spec) : firstFault? options = none := by
  by_contra hf
  obtain ⟨f, hf⟩ := Option.ne_none_iff_exists'.mp hf
  rw [ofOptions_eq_error_iff.mpr hf] at h
  cases h

lemma exists_ofOptions {options : List RequestOption} (h : firstFault? options = none) :
    ∃ spec, ofOptions options = .ok spec := by
  rcases ho : ofOptions options with f | spec
  · rw [ofOptions_eq_error_iff, h] at ho
    cases ho
  · exact ⟨spec, rfl⟩

/-- More options are applied to what the first ones led to, if these were accepted. -/
lemma applyAll_append (spec : Spec) (xs ys : List RequestOption) :
    spec.applyAll (xs ++ ys) =
      match spec.applyAll xs with
      | (next, none) => next.applyAll ys
      | (reached, some f) => (reached, some f) := by
  induction xs generalizing spec with
  | nil => rfl
  | cons o xs ih =>
    rw [List.cons_append, applyAll, applyAll]
    rcases spec.apply o with ⟨next, _ | f⟩
    · exact ih next
    · rfl

lemma applyAll_concat {spec next : Spec} {options : List RequestOption}
    (h : spec.applyAll options = (next, none)) (o : RequestOption) :
    spec.applyAll (options ++ [o]) = next.applyAll [o] := by
  rw [applyAll_append, h]

/-- Options that are accepted are accepted one after the other. -/
lemma ofOptions_concat {options : List RequestOption} {o : RequestOption} {spec : Spec}
    (h : ofOptions (options ++ [o]) = .ok spec) :
    ∃ before, ofOptions options = .ok before ∧ before.apply o = (spec, none) := by
  have hfault := firstFault?_of_ofOptions h
  rw [firstFault?, List.findSome?_append, Option.or_eq_none_iff] at hfault
  obtain ⟨before, hbefore⟩ := exists_ofOptions hfault.1
  refine ⟨before, hbefore, ?_⟩
  have hall : applyAll {} options = (before, none) := by
    unfold ofOptions at hbefore
    split at hbefore
    · next hall =>
      cases hbefore
      exact hall
    · cases hbefore
  rw [ofOptions, applyAll_concat hall, applyAll] at h
  rcases ha : before.apply o with ⟨next, _ | f⟩
  · rw [ha] at h
    cases h
    rfl
  · rw [ha] at h
    cases h

/-- **What every option keeps, a list of options keeps,** from the empty specification on. -/
theorem ofOptions_induction {P : List RequestOption → Spec → Prop} (hnil : P [] {})
    (hstep : ∀ options o spec next, P options spec → spec.apply o = (next, none) →
      P (options ++ [o]) next)
    {options : List RequestOption} {spec : Spec} (h : ofOptions options = .ok spec) :
    P options spec := by
  induction options using List.reverseRecOn generalizing spec with
  | nil =>
    cases h
    exact hnil
  | append_singleton options o ih =>
    obtain ⟨before, hbefore, hlast⟩ := ofOptions_concat h
    exact hstep options o before spec (ih hbefore) hlast

/-! ### Where the application stops -/

/-- The application stops at an option that is refused, with what the earlier ones led to. -/
lemma applyAll_eq_some_iff {spec reached : Spec} {options : List RequestOption} {f : OptionFault} :
    spec.applyAll options = (reached, some f) ↔
      ∃ good bad rest, options = good ++ bad :: rest ∧ spec.applyAll good = (reached, none) ∧
        bad.fault? = some f := by
  constructor
  · intro h
    induction options generalizing spec with
    | nil => cases h
    | cons o options ih =>
      rw [applyAll] at h
      rcases apply_cases spec o with ⟨f', hf, ho⟩ | ⟨next, -, ho⟩
      · rw [ho] at h
        cases h
        exact ⟨[], o, options, rfl, rfl, hf⟩
      · rw [ho] at h
        obtain ⟨good, bad, rest, rfl, hgood, hbad⟩ := ih h
        refine ⟨o :: good, bad, rest, rfl, ?_, hbad⟩
        rw [applyAll, ho]
        exact hgood
  · rintro ⟨good, bad, rest, rfl, hgood, hbad⟩
    rw [applyAll_append, hgood]
    dsimp only
    rcases apply_cases reached bad with ⟨f', hf, ho⟩ | ⟨next, hf, -⟩
    · cases hf.symm.trans hbad
      rw [applyAll, ho]
    · cases hf.symm.trans hbad

/-- **Options stop exactly at the first bad one, and keep what came before.** Whether an option is
refused, and why, is the same for every specification, and a refused option leaves the specification
as it was. A list is accepted exactly if every option of it is; otherwise it stops with the fault of
an option, at what the options before it lead to, and these are all accepted. Two lists one after
the other are the second one applied to what the first one leads to, if that was accepted. -/
theorem stops_at_first_fault :
    (∀ (spec other : Spec) (o : RequestOption), (spec.apply o).2 = (other.apply o).2) ∧
    (∀ (spec : Spec) (o : RequestOption), (spec.apply o).2 ≠ none → (spec.apply o).1 = spec) ∧
    (∀ (spec : Spec) (options : List RequestOption), (spec.applyAll options).2 = none ↔
      ∀ o ∈ options, (spec.apply o).2 = none) ∧
    (∀ (spec reached : Spec) (options : List RequestOption) (f : OptionFault),
      spec.applyAll options = (reached, some f) ↔
        ∃ good bad rest, options = good ++ bad :: rest ∧ spec.applyAll good = (reached, none) ∧
          (spec.apply bad).2 = some f) ∧
    ∀ (spec : Spec) (xs ys : List RequestOption), spec.applyAll (xs ++ ys) =
      match spec.applyAll xs with
      | (next, none) => next.applyAll ys
      | (reached, some f) => (reached, some f) := by
  refine ⟨fun spec other o => ?_, fun spec o => apply_fst_of_refused, fun spec options => ?_,
    fun spec reached options f => ?_, applyAll_append⟩
  · rw [apply_snd, apply_snd]
  · rw [applyAll_snd, firstFault?_eq_none_iff]
    simp only [apply_snd]
  · rw [applyAll_eq_some_iff]
    simp only [apply_snd]

theorem stops_at_first_fault_of_two :
    applyAll {} [.query "a" "b", .priority "x", .since "y"] =
      ({ query := [("a", "b")] }, some (.priority "x")) := by
  obtain ⟨-, -, -, hstop, -⟩ := stops_at_first_fault
  refine (hstop _ _ _ _).mpr ⟨[.query "a" "b"], .priority "x", [.since "y"], rfl, rfl, ?_⟩
  decide +kernel

end Request.Spec

end TopicFeed
