import TopicFeed.Proofs.Json.Grammar

/-!
Typed values are values.

The typed half of the grammar only narrows the syntax of values: each text that it gives a meaning
to is a value of the first half. A record is one as soon as the values of its fields are.
-/

namespace TopicFeed.Json.Grammar

open Ascii

/-- Every text that stands for something is a value. -/
def Values {α : Type} (V : Bytes → α → Prop) : Prop := ∀ s x, V s x → IsValue s

lemma PairedChars.chars {s w : Bytes} (h : PairedChars s w) : Chars s := by
  induction h with
  | nil => exact .nil
  | cons hp _ ih => exact .cons hp ih

lemma Writes.isString {s w : Bytes} (h : Writes s w) : IsString s := by
  obtain ⟨raw, hraw, hs⟩ := h
  exact ⟨raw, hraw.chars, hs⟩

theorem values_text : Values TextValue := by
  rintro s x ⟨w, hw, -⟩
  exact .string hw.isString

theorem values_integer (k : IntegerType) : Values (IntegerValue k) := by
  have hwhole : ∀ {w : Bytes}, Whole w → Unsigned ⟨false, w, [], none⟩ w := by
    intro w hw
    have hu : Unsigned ⟨false, w, [], none⟩ (w ++ [] ++ []) := .mk hw .none .none
    simpa using hu
  intro s i h
  cases h with
  | plain hw _ _ => exact .number ⟨_, s, hwhole hw, .inl rfl⟩
  | minus hw _ _ _ => exact .number ⟨_, _, hwhole hw, .inr rfl⟩

/-- A meaning that is put to another use is still one of values. -/
theorem Values.map {α β : Type} {V : Bytes → α → Prop} (h : Values V) (f : α → β) :
    Values fun s y => ∃ x, V s x ∧ y = f x := by
  rintro s y ⟨x, hx, -⟩
  exact h s x hx

lemma Elements.items {vs : List Bytes} {s : Bytes} (h : Elements vs s)
    (hvs : ∀ v ∈ vs, IsValue v) : Is (.items .list) s := by
  induction h with
  | one ha hb => exact .last (.list ha) (hvs _ (by simp)) hb
  | more ha hb _ ih =>
    have hrest := ih fun v hv => hvs v (List.mem_cons_of_mem _ hv)
    exact .more (.list ha) (hvs _ (by simp)) hb hrest

lemma ListOf.isValue {vs : List Bytes} {s : Bytes} (h : ListOf vs s) (hvs : ∀ v ∈ vs, IsValue v) :
    IsValue s := by
  cases h with
  | empty ha => exact .empty .list ha
  | full hs => exact .full .list (hs.items hvs)

lemma forall_of_forall₂ {α β : Type} {R : α → β → Prop} {P : α → Prop} {xs : List α} {ys : List β}
    (h : List.Forall₂ R xs ys) (hR : ∀ x ∈ xs, ∀ y, R x y → P x) : ∀ x ∈ xs, P x := by
  induction h with
  | nil => simp
  | cons hxy _ ih =>
    intro x hx
    rcases List.mem_cons.mp hx with rfl | hx
    · exact hR _ (by simp) _ hxy
    · exact ih (fun x hx => hR x (List.mem_cons_of_mem _ hx)) x hx

theorem Values.list {α : Type} {V : Bytes → α → Prop} (h : Values V) : Values (ListValue V) := by
  rintro s xs ⟨vs, hvs, hxs⟩
  exact hvs.isValue (forall_of_forall₂ hxs fun v _ x hv => h v x hv)

theorem Values.nullable {α : Type} {V : Bytes → α → Prop} (h : Values V) :
    Values (NullableValue V) := by
  intro s x hx
  cases hx with
  | null => exact .word (by decide)
  | some hs => exact h s _ hs

/-! ### Records -/

lemma MemberText.last {m : Member} {s : Bytes} (h : MemberText m s) (hv : IsValue m.2) :
    ∃ e d, Lead .object e ∧ Blanks d ∧ s = e ++ m.2 ++ d := by
  obtain ⟨ha, hk, hb, hc, hd⟩ := h
  exact ⟨_, _, .object ha hk.isString hb hc, hd, by simp⟩

lemma Members.items {ms : List Member} {s : Bytes} (h : Members ms s)
    (hms : ∀ m ∈ ms, IsValue m.2) : Is (.items .object) s := by
  induction h with
  | @one m _ hm =>
    have hv := hms m (by simp)
    obtain ⟨e, d, he, hd, rfl⟩ := hm.last hv
    exact .last he hv hd
  | @more m _ _ _ hm _ ih =>
    have hv := hms m (by simp)
    obtain ⟨e, d, he, hd, rfl⟩ := hm.last hv
    exact .more he hv hd (ih fun m hm => hms m (List.mem_cons_of_mem _ hm))

lemma ObjectOf.isValue {ms : List Member} {s : Bytes} (h : ObjectOf ms s)
    (hms : ∀ m ∈ ms, IsValue m.2) : IsValue s := by
  cases h with
  | empty ha => exact .empty .object ha
  | full hs => exact .full .object (hs.items hms)

variable {ρ : Type} {shapes : List (Shape ρ)} {default x : ρ} {s : Bytes}

lemma values_nil : ∀ f ∈ ([] : List (Shape ρ)), Values f.value := by simp

/-- One more field whose texts are values. -/
lemma Values.field {α : Type} {V : Bytes → α → Prop} (h : Values V) (key : String)
    (put : α → ρ → ρ) (hrest : ∀ f ∈ shapes, Values f.value) :
    ∀ f ∈ Shape.of key V put :: shapes, Values f.value :=
  List.forall_mem_cons.mpr ⟨h.map put, hrest⟩

lemma MemberValue.isValue (h : ∀ f ∈ shapes, Values f.value) {m : Member} {u : ρ → ρ}
    (hm : MemberValue shapes m u) : IsValue m.2 := by
  unfold MemberValue at hm
  split at hm
  · next f hf => exact h f (List.mem_of_find?_eq_some hf) m.2 u hm
  · exact hm.1

theorem ObjectForm.isValue (h : ∀ f ∈ shapes, Values f.value)
    (hs : ObjectForm shapes default s x) : IsValue s := by
  obtain ⟨ms, us, hms, -, hus, -⟩ := hs
  exact hms.isValue (forall_of_forall₂ hus fun m _ u hm => hm.isValue h)

lemma isValue_of_zip (h : ∀ f ∈ shapes, Values f.value) {vs : List Bytes} {us : List (ρ → ρ)}
    (hlen : vs.length ≤ shapes.length)
    (hus : List.Forall₂ (fun p u => p.1.value p.2 u) (shapes.zip vs) us) : ∀ v ∈ vs, IsValue v := by
  have hzip : ∀ p ∈ shapes.zip vs, IsValue p.2 :=
    forall_of_forall₂ hus fun p hp u hu => h p.1 (List.of_mem_zip hp).1 p.2 u hu
  intro v hv
  have hsnd : (shapes.zip vs).map Prod.snd = vs := List.map_snd_zip hlen
  rw [← hsnd] at hv
  obtain ⟨p, hp, rfl⟩ := List.mem_map.mp hv
  exact hzip p hp

theorem ListForm.isValue (h : ∀ f ∈ shapes, Values f.value)
    (hs : ListForm shapes default s x) : IsValue s := by
  obtain ⟨vs, us, hvs, hlen, hus, -⟩ := hs
  exact hvs.isValue (isValue_of_zip h hlen hus)

/-- **A record is a value**, in either form. -/
theorem values_record (h : ∀ f ∈ shapes, Values f.value) : Values (RecordValue shapes default) := by
  rintro s x (ho | hl)
  · exact ho.isValue h
  · exact hl.isValue h

end TopicFeed.Json.Grammar
