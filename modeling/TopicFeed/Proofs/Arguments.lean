import Mathlib.Data.List.Induction
import Mathlib.Data.List.TakeWhile
import TopicFeed.Command

/-!
What the arguments give to a switch.

A switch that takes a value and has no letter is given one in two ways: behind an equals sign, or in
the next argument. What is read for it is what stands there. Each argument does one of four things
to the switch, and a whole reading without operands follows from that.
-/

namespace TopicFeed.Command

/-- The arguments give a switch a value: behind an equals sign, or in the next argument. -/
def Gives (name value : String) (args : List String) : Prop :=
  "--" ++ name ++ "=" ++ value ∈ args ∨ ["--" ++ name, value] <:+: args

/-- The argument is neither the name of the switch nor gives it a value. -/
def Silent (name arg : String) : Prop :=
  arg ≠ "--" ++ name ∧ ∀ value, arg ≠ "--" ++ name ++ "=" ++ value

/-- The switch takes a value, and is known by nothing but its name. -/
structure Grammar.Named (grammar : Grammar) (name : String) : Prop where
  value : ∃ s, grammar.switches.find? (·.name == name) = some s ∧ s.effect = .value
  alone : ∀ s ∈ grammar.switches, s.letter.isSome = true → s.name ≠ name
  plain : '=' ∉ name.toList
  nonempty : name ≠ ""

/-! ### Arguments as texts -/

section Texts

variable {name value arg : String}

lemma eq_name_iff : arg = "--" ++ name ↔ arg.toList = '-' :: '-' :: name.toList := by
  rw [← String.toList_inj, String.toList_append]
  rfl

lemma eq_value_iff : arg = "--" ++ name ++ "=" ++ value ↔
    arg.toList = '-' :: '-' :: (name.toList ++ '=' :: value.toList) := by
  rw [← String.toList_inj]
  simp only [String.toList_append, List.append_assoc]
  rfl

lemma name_ne_value : "--" ++ name ≠ "--" ++ name ++ "=" ++ value := by
  intro h
  have hchars := eq_value_iff.mp h
  rw [eq_name_iff.mp rfl] at hchars
  simp at hchars

lemma value_inj {other : String} :
    "--" ++ name ++ "=" ++ value = "--" ++ name ++ "=" ++ other ↔ value = other := by
  rw [eq_value_iff, eq_value_iff.mp rfl]
  simp [String.toList_inj]

/-- An argument that does not begin with two dashes says nothing of a switch. -/
lemma silent_of_toList (h : ∀ text, arg.toList ≠ '-' :: '-' :: text) : Silent name arg :=
  ⟨fun harg => h _ (eq_name_iff.mp harg), fun _ harg => h _ (eq_value_iff.mp harg)⟩

/-- The name behind two dashes, up to the first equals sign. -/
def nameOf (text : List Char) : String := String.ofList (text.takeWhile (· ≠ '='))

lemma nameOf_name (hplain : '=' ∉ name.toList) : nameOf name.toList = name := by
  have hall : ∀ c ∈ name.toList, decide (c ≠ '=') = true := fun c hc => by
    simpa using ne_of_mem_of_not_mem hc hplain
  rw [nameOf, List.takeWhile_eq_self_iff.mpr hall, String.ofList_toList]

lemma nameOf_value (hplain : '=' ∉ name.toList) (rest : List Char) :
    nameOf (name.toList ++ '=' :: rest) = name := by
  have hall : ∀ c ∈ name.toList, decide (c ≠ '=') = true := fun c hc => by
    simpa using ne_of_mem_of_not_mem hc hplain
  rw [nameOf, List.takeWhile_append_of_pos hall]
  simp

/-- An argument that is about a switch has its name behind the dashes. -/
lemma silent_of_nameOf (hplain : '=' ∉ name.toList) {text : List Char}
    (harg : arg.toList = '-' :: '-' :: text) (hne : nameOf text ≠ name) : Silent name arg := by
  constructor
  · intro hnamed
    have htext : text = name.toList := by simpa [harg] using eq_name_iff.mp hnamed
    exact hne (htext ▸ nameOf_name hplain)
  · intro value hvalue
    have htext : text = name.toList ++ '=' :: value.toList := by
      simpa [harg] using eq_value_iff.mp hvalue
    exact hne (htext ▸ nameOf_value hplain value.toList)

/-- A name with nothing behind it, or with an equals sign and a value. -/
lemma eq_of_nameOf {text : List Char} (harg : arg.toList = '-' :: '-' :: text)
    (hname : nameOf text = name) :
    (text.dropWhile (· ≠ '=') = [] → arg = "--" ++ name) ∧
      ∀ c value, text.dropWhile (· ≠ '=') = c :: value →
        arg = "--" ++ name ++ "=" ++ String.ofList value := by
  have hbefore : text.takeWhile (· ≠ '=') = name.toList := by
    rw [← hname, nameOf, String.toList_ofList]
  have hsplit := List.takeWhile_append_dropWhile (p := (· ≠ '=')) (l := text)
  rw [hbefore] at hsplit
  constructor
  · intro hbehind
    rw [hbehind, List.append_nil] at hsplit
    rw [eq_name_iff, harg, hsplit]
  · intro c value hbehind
    have hsign := List.head?_dropWhile_not (· ≠ '=') text
    rw [hbehind] at hsign
    obtain rfl : c = '=' := by simpa using hsign
    rw [hbehind] at hsplit
    rw [eq_value_iff, harg, String.toList_ofList, hsplit]

/-- Two arguments in a row, when one more argument is added. -/
lemma pair_infix_concat {α : Type} {a b x : α} {l : List α} :
    [a, b] <:+: l ++ [x] ↔ [a, b] <:+: l ∨ (l.getLast? = some a ∧ b = x) := by
  have hpair : [a, b] <:+ l ++ [x] ↔ l.getLast? = some a ∧ b = x := by
    constructor
    · rintro ⟨before, h⟩
      rw [List.append_cons before a [b]] at h
      obtain ⟨rfl, hlast⟩ := List.append_inj' h rfl
      exact ⟨List.getLast?_concat, by simpa using hlast⟩
    · rintro ⟨hl, rfl⟩
      obtain ⟨before, rfl⟩ := List.getLast?_eq_some_iff.mp hl
      exact ⟨before, by simp⟩
  rw [List.infix_concat_iff, hpair, or_comm]

lemma gives_concat {args : List String} : Gives name value (args ++ [arg]) ↔
    Gives name value args ∨ arg = "--" ++ name ++ "=" ++ value ∨
      (args.getLast? = some ("--" ++ name) ∧ value = arg) := by
  rw [Gives, Gives, pair_infix_concat, List.mem_append, List.mem_singleton, eq_comm (b := arg)]
  tauto

end Texts

/-! ### One argument -/

/-- What an argument does to a switch. -/
inductive Tells (name : String) (g : Given) (arg : String) (next : Given) : Prop
  /-- It is the name of the switch, whose value is to come. -/
  | named (harg : arg = "--" ++ name) (hbefore : g.awaiting ≠ some name)
      (hvalue : next.value? name = g.value? name) (hnext : next.awaiting = some name)
  /-- It gives the switch a value behind an equals sign. -/
  | inline (value : String) (harg : arg = "--" ++ name ++ "=" ++ value)
      (hbefore : g.awaiting ≠ some name) (hnew : g.value? name = none)
      (hvalue : next.value? name = some value) (hnext : next.awaiting ≠ some name)
  /-- It is the value that the switch has been waiting for. -/
  | awaited (harg : Silent name arg) (hbefore : g.awaiting = some name)
      (hnew : g.value? name = none) (hvalue : next.value? name = some arg)
      (hnext : next.awaiting ≠ some name)
  /-- It is about something else. -/
  | other (harg : Silent name arg) (hbefore : g.awaiting ≠ some name)
      (hvalue : next.value? name = g.value? name) (hnext : next.awaiting ≠ some name)

namespace Given

variable {grammar : Grammar} {g next : Given} {name other value arg : String}

lemma lookup_concat (switches : List (String × String)) (other value name : String) :
    (switches ++ [(other, value)]).lookup name =
      (switches.lookup name).or (if name = other then some value else none) := by
  rw [List.lookup_append, List.lookup_cons, List.lookup_nil]
  rcases eq_or_ne name other with rfl | h
  · simp
  · rw [beq_false_of_ne h, if_neg h]

/-- What a switch is given for the first time. -/
lemma put_eq_ok (h : g.put other value = .ok next) :
    g.value? other = none ∧ next.operands = g.operands ∧ next.awaiting = none ∧ ∀ name,
      next.value? name = (g.value? name).or (if name = other then some value else none) := by
  unfold put at h
  split at h
  · cases h
  · next hnew =>
    cases h
    exact ⟨by simpa using hnew, rfl, rfl, lookup_concat g.switches other value⟩

lemma value?_put (h : g.put name value = .ok next) : next.value? name = some value := by
  obtain ⟨hnew, -, -, hvalues⟩ := put_eq_ok h
  rw [hvalues, hnew, if_pos rfl]
  rfl

lemma value?_put_of_ne (h : g.put other value = .ok next) (hne : name ≠ other) :
    next.value? name = g.value? name := by
  rw [(put_eq_ok h).2.2.2, if_neg hne, Option.or_none]

lemma awaiting_put (h : g.put other value = .ok next) : next.awaiting ≠ some name := by
  simp [(put_eq_ok h).2.2.1]

/-- An operand is kept. -/
lemma operands_operand (h : g.operand grammar arg = .ok next) : next.operands ≠ [] := by
  unfold operand at h
  split at h
  · cases h
  · cases h
    simp

/-- Letters do not concern a switch that has none. -/
lemma letters_other (hname : grammar.Named name) {cs : List Char}
    (h : g.letters grammar cs = .ok next) (hbefore : g.awaiting ≠ some name) :
    next.value? name = g.value? name ∧ next.awaiting ≠ some name ∧ next.operands = g.operands := by
  induction cs generalizing g with
  | nil =>
    cases h
    exact ⟨rfl, hbefore, rfl⟩
  | cons c cs ih =>
    rw [letters.eq_def] at h
    dsimp only at h
    split at h
    · cases h
    · next s hs =>
      have hletter : s.letter = some c := by simpa using List.find?_some hs
      have hne : name ≠ s.name :=
        (hname.alone s (List.mem_of_find?_eq_some hs) (by simp [hletter])).symm
      split at h
      · cases h
        exact ⟨rfl, by simpa using hne.symm, rfl⟩
      · exact ⟨value?_put_of_ne h hne, awaiting_put h, (put_eq_ok h).2.1⟩
      · exact ⟨value?_put_of_ne h hne, awaiting_put h, (put_eq_ok h).2.1⟩
      · rcases hput : g.put s.name "" with e | g'
        · rw [hput] at h
          cases h
        · rw [hput] at h
          obtain ⟨hvalue, hnext, hoperands⟩ := ih h (awaiting_put hput)
          exact ⟨hvalue.trans (value?_put_of_ne hput hne), hnext,
            hoperands.trans (put_eq_ok hput).2.1⟩
      · cases h

/-- What stands behind two dashes. -/
lemma name_tells (hname : grammar.Named name) {text : List Char}
    (harg : arg.toList = '-' :: '-' :: text) (hbefore : g.awaiting ≠ some name)
    (h : g.name grammar text = .ok next) :
    Tells name g arg next ∧ next.operands = g.operands := by
  unfold Given.name at h
  dsimp only at h
  rw [← nameOf] at h
  split at h
  · cases h
  next s hs =>
    have hfound : s.name = nameOf text := by simpa using List.find?_some hs
    by_cases hs' : s.name = name
    · obtain ⟨s', hs'', heffect⟩ := hname.value
      rw [← hfound, hs', hs''] at hs
      obtain rfl := Option.some.inj hs
      obtain ⟨hnamed, hinline⟩ := eq_of_nameOf harg (hfound.symm.trans hs')
      rw [heffect, hs'] at h
      rcases hbehind : text.dropWhile (· ≠ '=') with _ | ⟨c, value⟩
      · rw [hbehind] at h
        cases h
        exact ⟨.named (hnamed hbehind) hbefore rfl rfl, rfl⟩
      · rw [hbehind] at h
        exact ⟨.inline _ (hinline c value hbehind) hbefore (put_eq_ok h).1 (value?_put h)
          (awaiting_put h), (put_eq_ok h).2.1⟩
    · have hsilent : Silent name arg := silent_of_nameOf hname.plain harg (hfound ▸ hs')
      split at h
      · cases h
        exact ⟨.other hsilent hbefore rfl (by simpa using hs'), rfl⟩
      · exact ⟨.other hsilent hbefore (value?_put_of_ne h (Ne.symm hs')) (awaiting_put h),
          (put_eq_ok h).2.1⟩
      · exact ⟨.other hsilent hbefore (value?_put_of_ne h (Ne.symm hs')) (awaiting_put h),
          (put_eq_ok h).2.1⟩
      · cases h
      · cases h

/-- An argument that is no switch is a value that is waited for, or else an operand. -/
lemma plain_tells (hsilent : Silent name arg) (h : g.plain grammar arg = .ok next)
    (hnone : next.operands = []) : Tells name g arg next ∧ next.operands = g.operands := by
  unfold plain at h
  split at h
  · next other hother =>
    by_cases hsame : other = name
    · subst hsame
      exact ⟨.awaited hsilent hother (put_eq_ok h).1 (value?_put h) (awaiting_put h),
        (put_eq_ok h).2.1⟩
    · refine ⟨.other hsilent ?_ (value?_put_of_ne h (Ne.symm hsame)) (awaiting_put h),
        (put_eq_ok h).2.1⟩
      simpa [hother] using hsame
  · exact absurd hnone (operands_operand h)

/-- **What an argument does to a switch,** as long as there are no operands. -/
theorem step_tells (hname : grammar.Named name) (h : g.step grammar arg = .ok next)
    (hnone : next.operands = []) : Tells name g arg next ∧ next.operands = g.operands := by
  unfold step at h
  split at h
  · exact absurd hnone (operands_operand h)
  · split at h
    · next harg =>
      exact plain_tells (silent_of_toList fun text => by simp [harg]) h hnone
    · next rest hne harg =>
      split at h
      · cases h
      · next hawaiting =>
        have hbefore : g.awaiting ≠ some name := by simp_all
        split at h
        · cases h
          have hsilent : Silent name arg :=
            silent_of_nameOf hname.plain harg fun hempty => hname.nonempty hempty.symm
          exact ⟨.other hsilent hbefore rfl hbefore, rfl⟩
        · exact name_tells hname harg hbefore h
        · next _ _ hletters =>
          obtain ⟨hvalue, hnext, hoperands⟩ := letters_other hname h hbefore
          have hsilent : Silent name arg := silent_of_toList fun text htext => by
            rw [harg, List.cons.injEq] at htext
            exact hletters text htext.2
          exact ⟨.other hsilent hbefore hvalue hnext, hoperands⟩
    · next _ hne =>
      exact plain_tells (silent_of_toList fun text htext => hne _ htext) h hnone

end Given

/-! ### All arguments -/

/-- What has been read for a switch is what the arguments give to it. -/
structure Reads (name : String) (args : List String) (g : Given) : Prop where
  value : ∀ value, g.value? name = some value ↔ Gives name value args
  awaiting : g.awaiting = some name ↔ args.getLast? = some ("--" ++ name)

section Reading

variable {grammar : Grammar} {g next : Given} {name arg : String} {args : List String}

lemma Reads.tells (h : Reads name args g) (htells : Tells name g arg next) :
    Reads name (args ++ [arg]) next := by
  have hlast : (args ++ [arg]).getLast? = some ("--" ++ name) ↔ arg = "--" ++ name := by simp
  have hgives : ∀ value, Gives name value (args ++ [arg]) ↔ g.value? name = some value ∨
      arg = "--" ++ name ++ "=" ++ value ∨ (g.awaiting = some name ∧ value = arg) := by
    intro value
    rw [gives_concat, h.value, h.awaiting]
  cases htells with
  | named harg hbefore hvalue hnext =>
    refine ⟨fun value => ?_, iff_of_true hnext (hlast.mpr harg)⟩
    rw [hgives, hvalue, harg]
    simp [hbefore, name_ne_value]
  | inline value harg hbefore hnew hvalue hnext =>
    refine ⟨fun other => ?_, iff_of_false hnext fun h => ?_⟩
    · rw [hgives, hvalue, hnew, harg, value_inj]
      simp [hbefore]
    · exact name_ne_value ((hlast.mp h).symm.trans harg)
  | awaited harg hbefore hnew hvalue hnext =>
    refine ⟨fun value => ?_, iff_of_false hnext fun h => harg.1 (hlast.mp h)⟩
    rw [hgives, hvalue, hnew]
    simp [hbefore, harg.2, eq_comm]
  | other harg hbefore hvalue hnext =>
    refine ⟨fun value => ?_, iff_of_false hnext fun h => harg.1 (hlast.mp h)⟩
    rw [hgives, hvalue]
    simp [hbefore, harg.2]

lemma reads_nil : Reads name [] {} where
  value value := by simp [Given.value?, Gives]
  awaiting := by simp

/-- By the last argument: the arguments before it have left no operand either. -/
lemma reads_of_foldlM (hname : grammar.Named name)
    (h : args.foldlM (Given.step grammar) {} = .ok g) (hnone : g.operands = []) :
    Reads name args g := by
  induction args using List.reverseRecOn generalizing g with
  | nil =>
    cases h
    exact reads_nil
  | append_singleton args arg ih =>
    simp only [List.foldlM_append, List.foldlM_cons, List.foldlM_nil, bind_pure] at h
    rcases hbefore : args.foldlM (Given.step grammar) {} with e | before
    · rw [hbefore] at h
      cases h
    · rw [hbefore] at h
      obtain ⟨htells, hoperands⟩ := Given.step_tells hname (g := before) h hnone
      exact (ih hbefore (hoperands ▸ hnone)).tells htells

/-- **What is read for a switch is what the arguments give to it,** if they have no operands. -/
theorem value?_of_read (hname : grammar.Named name) (h : grammar.read args = .ok g)
    (hnone : g.operands = []) (value : String) :
    g.value? name = some value ↔ Gives name value args := by
  unfold Grammar.read at h
  rcases hfold : args.foldlM (Given.step grammar) {} with e | read
  · rw [hfold] at h
    cases h
  · rw [hfold] at h
    have hsame : read = g := by
      simp only [Except.bind, Given.finish] at h
      split at h
      · cases h
      · exact Except.ok.inj h
    subst hsame
    exact (reads_of_foldlM hname hfold hnone).value value

end Reading

end TopicFeed.Command
