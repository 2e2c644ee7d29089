import Mathlib.Data.List.Pairwise
import TopicFeed.Proofs.Json.Record
import TopicFeed.Proofs.Json.Typed

/-!
The members of an object, and what their order and number mean.

The text of an object has one list of members, whatever the blanks between them and the spelling of
the keys. What a record takes from them is told member by member; so members may change places if
the fields do not meddle with each other, and a member that no field asks for may come and go.
-/

namespace TopicFeed.Json

open Ascii Grammar

variable {ρ : Type} {shapes : List (Shape ρ)} {d x : ρ} {m n : Member} {ms ns : List Member}

/-! ### The members of a text -/

/-- An object whose members all have values. -/
def IsObject (ms : List Member) (s : Bytes) : Prop := ObjectOf ms s ∧ ∀ m ∈ ms, IsValue m.2

lemma isValue_unique {c c' v v' p p' : Bytes} (hc : Blanks c) (hc' : Blanks c') (hv : IsValue v)
    (hv' : IsValue v') (hp : Stops p) (hp' : Stops p') (h : c ++ v ++ p = c' ++ v' ++ p') :
    v = v' ∧ p = p' := by
  have hskip := skip_complete hc hv hp
  rw [h, skip_complete hc' hv' hp'] at hskip
  cases hskip
  have hfirst := (begins_of_isValue hv).skipBlanks hc
  rw [List.append_cancel_right h, (begins_of_isValue hv').skipBlanks hc'] at hfirst
  exact ⟨hfirst.symm, rfl⟩

/-- A key, its value and what stands behind it are told apart in one way only. -/
lemma KeyBehind.unique {key key' e e' v v' p p' : Bytes} (he : KeyBehind key e)
    (he' : KeyBehind key' e') (hv : IsValue v) (hv' : IsValue v') (hp : Stops p) (hp' : Stops p')
    (h : e ++ v ++ p = e' ++ v' ++ p') : key = key' ∧ v = v' ∧ p = p' := by
  obtain ⟨hraw, hb, hc⟩ := he
  obtain ⟨hraw', hb', hc'⟩ := he'
  rename_i raw b c raw' b' c'
  have hsplit : raw ++ quote :: (b ++ colon :: (c ++ v ++ p)) =
      raw' ++ quote :: (b' ++ colon :: (c' ++ v' ++ p')) := by simpa using h
  have hkey := string_kept_complete hraw [] (b ++ colon :: (c ++ v ++ p))
  rw [hsplit, string_kept_complete hraw' []] at hkey
  simp only [List.reverse_nil, List.nil_append, Except.ok.injEq, Prod.mk.injEq] at hkey
  obtain ⟨hsame, hbehind⟩ := hkey
  have hcolon := colonAfterKey_complete hb (c ++ v ++ p)
  rw [← hbehind, colonAfterKey_complete hb'] at hcolon
  obtain ⟨hvalue, hrest⟩ := isValue_unique hc hc' hv hv' hp hp' (Except.ok.inj hcolon).symm
  exact ⟨hsame.symm, hvalue, hrest⟩

lemma MembersBehind.unique {p : Bytes} (hms : MembersBehind ms p) (hvs : ∀ m ∈ ms, IsValue m.2)
    (hns : MembersBehind ns p) (hws : ∀ m ∈ ns, IsValue m.2) : ms = ns := by
  induction hms generalizing ns with
  | @close b hb =>
    have hfirst : skipBlanks (b ++ [closeBrace]) = [closeBrace] := skipBlanks_upTo hb rfl []
    generalize hp : b ++ [closeBrace] = p at hns hfirst
    cases hns with
    | close _ => rfl
    | more hb' _ _ _ =>
      rw [skipBlanks_upTo hb' rfl] at hfirst
      cases hfirst
  | @more b a e key v q ms hb ha he hq ih =>
    have hfirst := skipBlanks_upTo hb (c := comma) rfl (a ++ quote :: (e ++ v ++ q))
    generalize hp : b ++ comma :: (a ++ quote :: (e ++ v ++ q)) = p at hns hfirst
    cases hns with
    | close hb' =>
      rw [skipBlanks_upTo hb' rfl] at hfirst
      cases hfirst
    | @more b' a' e' key' v' q' ns hb' ha' he' hq' =>
      rw [skipBlanks_upTo hb' rfl] at hfirst
      have hquote := skipBlanks_upTo ha (c := quote) rfl (e ++ v ++ q)
      rw [← (List.cons.inj hfirst).2, skipBlanks_upTo ha' rfl] at hquote
      have hstops := hq.stops []
      have hstops' := hq'.stops []
      rw [List.append_nil] at hstops hstops'
      obtain ⟨hv, hvs'⟩ := List.forall_mem_cons.mp hvs
      obtain ⟨hw, hws'⟩ := List.forall_mem_cons.mp hws
      obtain ⟨rfl, rfl, rfl⟩ :=
        he.unique he' hv hw hstops hstops' (List.cons.inj hquote).2.symm
      rw [ih hvs' hq' hws']

/-- Behind its opening brace an object is closed, or a member comes as it would behind a comma. -/
lemma IsObject.behind {s : Bytes} (h : IsObject ms s) :
    ∃ t, s = openBrace :: t ∧
      ((ms = [] ∧ skipBlanks t = [closeBrace]) ∨
        (MembersBehind ms (comma :: t) ∧ (skipBlanks t).head? = some quote)) := by
  rcases objectOf_iff.mp h.1 with
    ⟨rfl, a, ha, rfl⟩ | ⟨a, key, e, v, ns, p, ha, he, hp, rfl, rfl⟩
  · exact ⟨_, rfl, .inl ⟨rfl, skipBlanks_upTo ha rfl []⟩⟩
  · refine ⟨_, rfl, .inr ⟨.more blanks_nil ha he hp, ?_⟩⟩
    rw [skipBlanks_upTo ha rfl]
    rfl

/-- **An object has one list of members.** -/
theorem IsObject.unique {s : Bytes} (hms : IsObject ms s) (hns : IsObject ns s) : ms = ns := by
  obtain ⟨t, rfl, hms'⟩ := hms.behind
  obtain ⟨t', hs, hns'⟩ := hns.behind
  obtain rfl : t = t' := (List.cons.inj hs).2
  rcases hms' with ⟨rfl, hclose⟩ | ⟨hms', hquote⟩
  · rcases hns' with ⟨rfl, -⟩ | ⟨-, hquote'⟩
    · rfl
    · rw [hclose] at hquote'
      cases hquote'
  · rcases hns' with ⟨rfl, hclose'⟩ | ⟨hns', -⟩
    · rw [hclose'] at hquote
      cases hquote
    · exact hms'.unique hms.2 hns' hns.2

/-! ### Writing members -/

/-- The members as an object without blanks, each key as its bytes. -/
def written (ms : List Member) : Bytes :=
  openBrace :: List.intercalate [comma] (ms.map fun m => quote :: m.1 ++ [quote] ++ colon :: m.2) ++
    [closeBrace]

/-- Bytes that need no escape write themselves. -/
lemma pairedChars_self {s : Bytes} (h : ∀ b ∈ s, b ≠ quote ∧ b ≠ backslash ∧ 0x20 ≤ b) :
    PairedChars s s := by
  induction s with
  | nil => exact .nil
  | cons b s ih =>
    obtain ⟨⟨hquote, hbackslash, hcontrol⟩, hs⟩ := List.forall_mem_cons.mp h
    exact .cons (.plain hquote hbackslash hcontrol) (ih hs)

/-- Members whose keys need no escape are those of some object. -/
lemma isObject_written
    (hkeys : ∀ m ∈ ms, ∀ b ∈ m.1, b ≠ quote ∧ b ≠ backslash ∧ 0x20 ≤ b)
    (hvalues : ∀ m ∈ ms, IsValue m.2) : IsObject ms (written ms) := by
  have htext : ∀ m ∈ ms, MemberText m (quote :: m.1 ++ [quote] ++ colon :: m.2) := by
    intro m hm
    have hkey : Writes (quote :: m.1 ++ [quote]) m.1 := ⟨m.1, pairedChars_self (hkeys m hm), rfl⟩
    have hmember := MemberText.mk (v := m.2) blanks_nil hkey blanks_nil blanks_nil blanks_nil
    simpa using hmember
  refine ⟨?_, hvalues⟩
  rcases ms with _ | ⟨m, ms⟩
  · exact .empty blanks_nil
  · refine .full ?_
    clear hkeys hvalues
    induction ms generalizing m with
    | nil => simpa [List.intercalate] using Members.one (htext m List.mem_cons_self)
    | cons n ms ih =>
      have hrest := ih n fun m hm => htext m (List.mem_cons_of_mem _ hm)
      simpa [List.intercalate] using Members.more (htext m List.mem_cons_self) hrest

/-- What is skipped to the end of a text is a value. -/
lemma isValue_of_skip {v : Bytes} (hfirst : skipBlanks v = v) (h : skip v = .ok []) :
    IsValue v := by
  obtain ⟨a, w, ha, hw, rfl⟩ := skip_sound h
  rw [List.append_nil] at hfirst ⊢
  rw [(begins_of_isValue hw).skipBlanks ha] at hfirst
  exact hfirst ▸ hw

lemma isObject_of_skip
    (h : ∀ m ∈ ms, (∀ b ∈ m.1, b ≠ quote ∧ b ≠ backslash ∧ 0x20 ≤ b) ∧
      skipBlanks m.2 = m.2 ∧ skip m.2 = .ok []) : IsObject ms (written ms) :=
  isObject_written (fun m hm => (h m hm).1) fun m hm => isValue_of_skip (h m hm).2.1 (h m hm).2.2

/-! ### What members make of a record -/

/-- No field asks for the key. -/
def Unknown (shapes : List (Shape ρ)) (key : Bytes) : Prop := ∀ f ∈ shapes, f.keyBytes ≠ key

instance (shapes : List (Shape ρ)) (key : Bytes) : Decidable (Unknown shapes key) :=
  inferInstanceAs (Decidable (∀ f ∈ shapes, f.keyBytes ≠ key))

/-- What members make of a record, one after the other: each has a value of its field, or any value
if no field asks for it, and a key that a field asks for does not come again. -/
inductive Makes (shapes : List (Shape ρ)) : ρ → List Member → ρ → Prop
  | nil {d : ρ} : Makes shapes d [] d
  | cons {d x : ρ} {m : Member} {ms : List Member} {u : ρ → ρ}
      (hnew : Unknown shapes m.1 ∨ m.1 ∉ ms.map (·.1)) (hv : MemberValue shapes m u)
      (h : Makes shapes (u d) ms x) : Makes shapes d (m :: ms) x

lemma count_cons_iff (key : Bytes) (keys : List Bytes) :
    (∀ f ∈ shapes, (key :: keys).count f.keyBytes ≤ 1) ↔
      (Unknown shapes key ∨ key ∉ keys) ∧ ∀ f ∈ shapes, keys.count f.keyBytes ≤ 1 := by
  constructor
  · intro h
    refine ⟨?_, fun f hf => Nat.le_trans (List.count_le_count_cons) (h f hf)⟩
    by_contra hnot
    rw [not_or, not_not] at hnot
    obtain ⟨hknown, hmem⟩ := hnot
    simp only [Unknown, not_forall, not_not] at hknown
    obtain ⟨f, hf, rfl⟩ := hknown
    have hpos := List.count_pos_iff.mpr hmem
    have hle := h f hf
    rw [List.count_cons_self] at hle
    omega
  · rintro ⟨hnew, h⟩ f hf
    by_cases hkey : f.keyBytes = key
    · rcases hnew with hunknown | hmem
      · exact absurd hkey (hunknown f hf)
      · simp [hkey, List.count_eq_zero.mpr hmem]
    · rw [List.count_cons_of_ne (Ne.symm hkey)]
      exact h f hf

/-- Members one after the other, and all of them at once. -/
lemma makes_iff : Makes shapes d ms x ↔
    (∀ f ∈ shapes, (ms.map (·.1)).count f.keyBytes ≤ 1) ∧
      ∃ us, List.Forall₂ (MemberValue shapes) ms us ∧ x = updated d us := by
  induction ms generalizing d with
  | nil =>
    constructor
    · intro h
      cases h
      exact ⟨by simp, [], .nil, rfl⟩
    · rintro ⟨-, us, hus, rfl⟩
      cases hus
      exact .nil
  | cons m ms ih =>
    rw [List.map_cons, count_cons_iff]
    constructor
    · intro h
      cases h with
      | cons hnew hv h =>
        obtain ⟨hkeys, us, hus, rfl⟩ := ih.mp h
        exact ⟨⟨hnew, hkeys⟩, _ :: us, .cons hv hus, rfl⟩
    · rintro ⟨⟨hnew, hkeys⟩, us, hus, rfl⟩
      cases hus with
      | cons hv hus => exact .cons hnew hv (ih.mpr ⟨hkeys, _, hus, rfl⟩)

/-- A record as an object is what the members of the object make of the default. -/
lemma objectForm_iff {s : Bytes} :
    ObjectForm shapes d s x ↔ ∃ ms, ObjectOf ms s ∧ Makes shapes d ms x := by
  constructor
  · rintro ⟨ms, us, hms, hkeys, hus, hx⟩
    exact ⟨ms, hms, makes_iff.mpr ⟨hkeys, us, hus, hx⟩⟩
  · rintro ⟨ms, hms, h⟩
    obtain ⟨hkeys, us, hus, hx⟩ := makes_iff.mp h
    exact ⟨ms, us, hms, hkeys, hus, hx⟩

lemma Makes.isValue (h : Makes shapes d ms x) (hshapes : ∀ f ∈ shapes, Values f.value) :
    ∀ m ∈ ms, IsValue m.2 := by
  induction h with
  | nil => simp
  | cons _ hv _ ih => exact List.forall_mem_cons.mpr ⟨hv.isValue hshapes, ih⟩

/-! ### Another order -/

/-- It makes no difference which of two fields is set first. -/
def Commutes (f g : Shape ρ) : Prop :=
  ∀ (v w : Bytes) (u u' : ρ → ρ), f.value v u → g.value w u' → ∀ x, u (u' x) = u' (u x)

instance : Std.Symm (@Commutes ρ) where
  symm _ _ h v w u u' hu hu' x := (h w v u' u hu' hu x).symm

lemma commutes_of {α β : Type} {put : α → ρ → ρ} {put' : β → ρ → ρ}
    (h : ∀ a b x, put a (put' b x) = put' b (put a x)) (key key' : String)
    (V : Bytes → α → Prop) (W : Bytes → β → Prop) :
    Commutes (Shape.of key V put) (Shape.of key' W put') := by
  rintro v w _ _ ⟨a, -, rfl⟩ ⟨b, -, rfl⟩
  exact h a b

lemma memberValue_cases {u : ρ → ρ} (h : MemberValue shapes m u) :
    (∃ f ∈ shapes, f.keyBytes = m.1 ∧ f.value m.2 u) ∨ (Unknown shapes m.1 ∧ u = id) := by
  unfold MemberValue at h
  split at h
  · next f hf =>
    have hkey := List.find?_some hf
    exact .inl ⟨f, List.mem_of_find?_eq_some hf, by simpa using hkey, h⟩
  · next hnone =>
    refine .inr ⟨fun f hf hkey => ?_, h.2⟩
    exact absurd (by simpa using hkey) (List.find?_eq_none.mp hnone f hf)

/-- Members with different keys may be taken in either order. -/
lemma MemberValue.commutes (hshapes : shapes.Pairwise Commutes) {u u' : ρ → ρ}
    (hu : MemberValue shapes m u) (hu' : MemberValue shapes n u')
    (hne : Unknown shapes m.1 ∨ m.1 ≠ n.1) (y : ρ) : u (u' y) = u' (u y) := by
  rcases memberValue_cases hu with ⟨f, hf, hfkey, hfu⟩ | ⟨-, rfl⟩
  · rcases memberValue_cases hu' with ⟨g, hg, hgkey, hgu⟩ | ⟨-, rfl⟩
    · have hfg : f ≠ g := by
        rintro rfl
        rcases hne with hunknown | hne
        · exact hunknown f hf hfkey
        · exact hne (hfkey.symm.trans hgkey)
      exact hshapes.forall hf hg hfg _ _ _ _ hfu hgu y
    · rfl
  · rfl

/-- **Members may stand in any order.** -/
theorem Makes.perm (hshapes : shapes.Pairwise Commutes) (hperm : ms.Perm ns)
    (h : Makes shapes d ms x) : Makes shapes d ns x := by
  induction hperm generalizing d with
  | nil => exact h
  | cons m hperm ih =>
    cases h with
    | cons hnew hv h =>
      rw [(hperm.map (·.1)).mem_iff] at hnew
      exact .cons hnew hv (ih h)
  | swap m n ms =>
    cases h with
    | @cons _ _ _ _ u hnew hv h =>
      cases h with
      | @cons _ _ _ _ u' hnew' hv' h =>
        have hnew : Unknown shapes n.1 ∨ n.1 ≠ m.1 ∧ n.1 ∉ ms.map (·.1) := by simpa using hnew
        rw [← MemberValue.commutes hshapes hv hv' (hnew.imp_right And.left)] at h
        refine .cons ?_ hv' (.cons (hnew.imp_right And.right) hv h)
        rw [List.map_cons, List.mem_cons, not_or]
        rcases hnew with hunknown | ⟨hne, -⟩
        · by_cases hne : m.1 = n.1
          · exact .inl (hne ▸ hunknown)
          · exact hnew'.imp_right fun h => ⟨hne, h⟩
        · exact hnew'.imp_right fun h => ⟨Ne.symm hne, h⟩
  | trans _ _ ih ih' => exact ih' (ih h)

/-! ### Other members -/

/-- A member that no field asks for leaves the record as it is. -/
lemma Makes.of_unknown (hkey : Unknown shapes m.1) (h : Makes shapes d (m :: ms) x) :
    Makes shapes d ms x := by
  cases h with
  | cons _ hv h =>
    rcases memberValue_cases hv with ⟨f, hf, hfkey, -⟩ | ⟨-, rfl⟩
    · exact absurd hfkey (hkey f hf)
    · exact h

lemma memberValue_of_unknown (hkey : Unknown shapes m.1) (hvalue : IsValue m.2) :
    MemberValue shapes m id := by
  have hnone : shapes.find? (·.keyBytes == m.1) = none := by
    rw [List.find?_eq_none]
    intro f hf
    simpa using hkey f hf
  rw [MemberValue, hnone]
  exact ⟨hvalue, rfl⟩

/-- The members of an object in another order, with more or fewer of those that no field asks for,
and with changes inside single members. -/
inductive Rearranged (shapes : List (Shape ρ)) (inside : Member → Member → Prop) :
    List Member → List Member → Prop
  | perm {ms ns : List Member} (h : ms.Perm ns) : Rearranged shapes inside ms ns
  | insert {m : Member} (before behind : List Member) (hkey : Unknown shapes m.1)
      (hvalue : IsValue m.2) :
      Rearranged shapes inside (before ++ behind) (before ++ m :: behind)
  | delete {m : Member} (before behind : List Member) (hkey : Unknown shapes m.1) :
      Rearranged shapes inside (before ++ m :: behind) (before ++ behind)
  | within {m n : Member} (before behind : List Member) (h : inside m n) :
      Rearranged shapes inside (before ++ m :: behind) (before ++ n :: behind)
  | trans {ms ns os : List Member} (h : Rearranged shapes inside ms ns)
      (h' : Rearranged shapes inside ns os) : Rearranged shapes inside ms os

/-- **Members may be rearranged,** if it makes no difference which of two fields is set first, and a
change inside a member leaves it its key and what it makes. -/
theorem Makes.rearranged {inside : Member → Member → Prop} (hshapes : shapes.Pairwise Commutes)
    (hinside : ∀ {m n u}, inside m n → MemberValue shapes m u →
      n.1 = m.1 ∧ MemberValue shapes n u)
    (hms : Rearranged shapes inside ms ns) (h : Makes shapes d ms x) : Makes shapes d ns x := by
  -- every change is made at the first place, where the permuted members have it
  have hfirst : ∀ {m before behind d}, Makes shapes d (before ++ m :: behind) x ↔
      Makes shapes d (m :: (before ++ behind)) x :=
    ⟨.perm hshapes List.perm_middle, .perm hshapes List.perm_middle.symm⟩
  induction hms generalizing d with
  | perm hperm => exact h.perm hshapes hperm
  | insert before behind hkey hvalue =>
    exact hfirst.mpr (.cons (.inl hkey) (memberValue_of_unknown hkey hvalue) h)
  | delete before behind hkey => exact (hfirst.mp h).of_unknown hkey
  | within before behind hmn =>
    rw [hfirst] at h ⊢
    cases h with
    | cons hnew hv h =>
      obtain ⟨hkey, hv'⟩ := hinside hmn hv
      exact .cons (hkey ▸ hnew) hv' h
  | trans _ _ ih ih' => exact ih' (ih h)

/-! ### What fields leave alone -/

/-- Whatever the field makes of a record, the property stays. -/
def Keeps (P : ρ → Prop) (f : Shape ρ) : Prop := ∀ v u, f.value v u → ∀ x, P x → P (u x)

lemma keeps_of {α : Type} {P : ρ → Prop} {V : Bytes → α → Prop} {put : α → ρ → ρ}
    (h : ∀ s a x, V s a → P x → P (put a x)) (key : String) : Keeps P (Shape.of key V put) := by
  rintro v _ ⟨a, ha, rfl⟩ x hx
  exact h v a x ha hx

lemma updated_keeps {α : Type} {P : ρ → Prop} {R : α → (ρ → ρ) → Prop} {ps : List α}
    {us : List (ρ → ρ)} (hus : List.Forall₂ R ps us)
    (h : ∀ p ∈ ps, ∀ u, R p u → ∀ x, P x → P (u x)) (hd : P d) : P (updated d us) := by
  induction hus generalizing d with
  | nil => exact hd
  | cons hu _ ih =>
    have hnext := h _ List.mem_cons_self _ hu d hd
    exact ih (fun p hp => h p (List.mem_cons_of_mem _ hp)) hnext

/-- **What every field leaves alone, a record has from its default,** in either form. -/
theorem recordValue_keeps {P : ρ → Prop} (hshapes : ∀ f ∈ shapes, Keeps P f) (hd : P d)
    {s : Bytes} (h : RecordValue shapes d s x) : P x := by
  rcases h with ⟨ms, us, -, -, hus, rfl⟩ | ⟨vs, us, -, -, hus, rfl⟩
  · refine updated_keeps hus (fun m _ u hv y hy => ?_) hd
    rcases memberValue_cases hv with ⟨f, hf, -, hu⟩ | ⟨-, rfl⟩
    · exact hshapes f hf _ _ hu y hy
    · exact hy
  · exact updated_keeps hus (fun p hp => hshapes p.1 (List.of_mem_zip hp).1 p.2) hd

end TopicFeed.Json
