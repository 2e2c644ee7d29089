import Mathlib.Data.List.Nodup
import TopicFeed.Proofs.Json.Members

/-!
The two forms of a record.

The text of a list has one list of elements, whatever the blanks between them. What a record takes
from a list is told element by element, each by the field in its place; and a field with a key of
its own is found by the key as well as by the place. So a list says the same as any object that has
its elements behind the keys of the first fields.
-/

namespace TopicFeed.Json

open Ascii Grammar

variable {ρ : Type} {shapes : List (Shape ρ)} {d x : ρ} {vs ws : List Bytes} {s o : Bytes}

/-! ### The elements of a text -/

/-- A list whose elements are all values. -/
def IsList (vs : List Bytes) (s : Bytes) : Prop := ListOf vs s ∧ ∀ v ∈ vs, IsValue v

lemma ElementsBehind.unique {p : Bytes} (hvs : ElementsBehind vs p) (hv : ∀ v ∈ vs, IsValue v)
    (hws : ElementsBehind ws p) (hw : ∀ w ∈ ws, IsValue w) : vs = ws := by
  induction hvs generalizing ws with
  | @close b hb =>
    have hfirst : skipBlanks (b ++ [closeBracket]) = [closeBracket] := skipBlanks_upTo hb rfl []
    generalize hp : b ++ [closeBracket] = p at hws hfirst
    cases hws with
    | close _ => rfl
    | more hb' _ _ =>
      rw [skipBlanks_upTo hb' rfl] at hfirst
      cases hfirst
  | @more b a v q vs hb ha hq ih =>
    have hfirst := skipBlanks_upTo hb (c := comma) rfl (a ++ v ++ q)
    generalize hp : b ++ comma :: (a ++ v ++ q) = p at hws hfirst
    cases hws with
    | close hb' =>
      rw [skipBlanks_upTo hb' rfl] at hfirst
      cases hfirst
    | @more b' a' w q' ws hb' ha' hq' =>
      rw [skipBlanks_upTo hb' rfl] at hfirst
      have hstops := hq.stops []
      have hstops' := hq'.stops []
      rw [List.append_nil] at hstops hstops'
      obtain ⟨hv, hvs⟩ := List.forall_mem_cons.mp hv
      obtain ⟨hw, hws⟩ := List.forall_mem_cons.mp hw
      obtain ⟨rfl, rfl⟩ := isValue_unique ha ha' hv hw hstops hstops' (List.cons.inj hfirst).2.symm
      rw [ih hvs hq' hws]

/-- Behind its opening bracket a list is closed, or an element comes as it would behind a comma. -/
lemma IsList.behind (h : IsList vs s) :
    ∃ t, s = openBracket :: t ∧
      ((vs = [] ∧ skipBlanks t = [closeBracket]) ∨
        (ElementsBehind vs (comma :: t) ∧ (skipBlanks t).head? ≠ some closeBracket)) := by
  rcases listOf_iff.mp h.1 with ⟨rfl, a, ha, rfl⟩ | ⟨a, v, ws, p, ha, hp, rfl, rfl⟩
  · exact ⟨_, rfl, .inl ⟨rfl, skipBlanks_upTo ha rfl []⟩⟩
  · have hbegins := (begins_of_isValue (h.2 v List.mem_cons_self)).append p
    refine ⟨_, rfl, .inr ⟨.more blanks_nil ha hp, ?_⟩⟩
    rw [List.append_assoc, hbegins.skipBlanks ha]
    rcases hfirst : v ++ p with _ | ⟨c, t⟩
    · exact nofun
    · rw [hfirst] at hbegins
      exact fun hclose => hbegins.ne_close .list (Option.some.inj hclose)

/-- **A list has one list of elements.** -/
theorem IsList.unique (hvs : IsList vs s) (hws : IsList ws s) : vs = ws := by
  obtain ⟨t, rfl, hvs'⟩ := hvs.behind
  obtain ⟨t', hs, hws'⟩ := hws.behind
  obtain rfl : t = t' := (List.cons.inj hs).2
  rcases hvs' with ⟨rfl, hclose⟩ | ⟨hvs', hopen⟩
  · rcases hws' with ⟨rfl, -⟩ | ⟨-, hopen'⟩
    · rfl
    · rw [hclose] at hopen'
      exact absurd rfl hopen'
  · rcases hws' with ⟨rfl, hclose'⟩ | ⟨hws', -⟩
    · rw [hclose'] at hopen
      exact absurd rfl hopen
    · exact hvs'.unique hvs.2 hws' hws.2

/-- The elements as a list without blanks. -/
def writtenList (vs : List Bytes) : Bytes :=
  openBracket :: List.intercalate [comma] vs ++ [closeBracket]

/-- Values are the elements of some list. -/
lemma isList_written (hvs : ∀ v ∈ vs, IsValue v) : IsList vs (writtenList vs) := by
  refine ⟨?_, hvs⟩
  rcases vs with _ | ⟨v, vs⟩
  · exact .empty blanks_nil
  · refine .full ?_
    clear hvs
    induction vs generalizing v with
    | nil => simpa [List.intercalate] using Elements.one (v := v) blanks_nil blanks_nil
    | cons w vs ih =>
      have hrest := Elements.more (v := v) blanks_nil blanks_nil (ih w)
      simpa [List.intercalate] using hrest

/-! ### Fields by place and by key -/

/-- The values behind the first of the keys. -/
def keyed (keys : List String) (vs : List Bytes) : List Member := (keys.map Bytes.ofString).zip vs

/-- Two texts of one record: a list of values, and an object with the same values behind the first
of the keys. -/
def TwoForms (keys : List String) (s o : Bytes) : Prop :=
  ∃ vs, vs.length ≤ keys.length ∧ IsList vs s ∧ IsObject (keyed keys vs) o

/-- Every list of values has its object, if no key needs an escape. -/
lemma isObject_keyed {keys : List String}
    (hkeys : ∀ k ∈ keys, ∀ b ∈ Bytes.ofString k, b ≠ quote ∧ b ≠ backslash ∧ 0x20 ≤ b)
    (hvs : ∀ v ∈ vs, IsValue v) : IsObject (keyed keys vs) (written (keyed keys vs)) := by
  refine isObject_written (fun m hm => ?_) fun m hm => ?_
  · obtain ⟨k, hk, hkey⟩ := List.mem_map.mp (List.of_mem_zip hm).1
    exact hkey ▸ hkeys k hk
  · exact hvs _ (List.of_mem_zip hm).2

/-- Every field has a key of its own. -/
def Keyed (shapes : List (Shape ρ)) : Prop := (shapes.map Shape.keyBytes).Nodup

instance (shapes : List (Shape ρ)) : Decidable (Keyed shapes) :=
  inferInstanceAs (Decidable (List.Nodup _))

lemma Keyed.find? (h : Keyed shapes) {f : Shape ρ} (hf : f ∈ shapes) :
    shapes.find? (·.keyBytes == f.keyBytes) = some f := by
  induction shapes with
  | nil => cases hf
  | cons g shapes ih =>
    obtain ⟨hg, hrest⟩ := List.nodup_cons.mp h
    rcases List.mem_cons.mp hf with rfl | hf
    · simp
    · have hne : g.keyBytes ≠ f.keyBytes := fun hkey => hg (hkey ▸ List.mem_map_of_mem hf)
      rw [List.find?_cons_of_neg (by simpa using hne), ih hrest hf]

/-- Behind its key a field takes the same values as in its place. -/
lemma Keyed.memberValue_iff (h : Keyed shapes) {f : Shape ρ} (hf : f ∈ shapes) {v : Bytes}
    {u : ρ → ρ} : MemberValue shapes (f.keyBytes, v) u ↔ f.value v u := by
  rw [MemberValue, h.find? hf]

lemma forall₂_congr {α β : Type} {R S : α → β → Prop} {as : List α} {bs : List β}
    (h : ∀ a ∈ as, ∀ b, R a b ↔ S a b) : List.Forall₂ R as bs ↔ List.Forall₂ S as bs := by
  simp only [List.forall₂_iff_zip]
  refine and_congr_right fun _ => forall_congr' fun a => forall_congr' fun b => ?_
  exact forall_congr' fun hmem => h a (List.of_mem_zip hmem).1 b

lemma keyed_shapes (shapes : List (Shape ρ)) (vs : List Bytes) :
    keyed (shapes.map Shape.key) vs = (shapes.map Shape.keyBytes).zip vs := by
  rw [keyed, List.map_map]
  rfl

lemma Keyed.forall₂_iff (h : Keyed shapes) {us : List (ρ → ρ)} :
    List.Forall₂ (MemberValue shapes) (keyed (shapes.map Shape.key) vs) us ↔
      List.Forall₂ (fun p u => p.1.value p.2 u) (shapes.zip vs) us := by
  rw [keyed_shapes, List.zip_map_left, List.forall₂_map_left_iff]
  exact forall₂_congr fun p hp u => h.memberValue_iff (List.of_mem_zip hp).1

lemma keys_sublist {α β : Type} (as : List α) (bs : List β) :
    ((as.zip bs).map Prod.fst).Sublist as := by
  induction as generalizing bs with
  | nil => simp
  | cons a as ih =>
    cases bs with
    | nil => simp
    | cons b bs => simpa using ih bs

lemma Keyed.count_le (h : Keyed shapes) (vs : List Bytes) (key : Bytes) :
    ((keyed (shapes.map Shape.key) vs).map (·.1)).count key ≤ 1 := by
  rw [keyed_shapes]
  exact List.nodup_iff_count_le_one.mp (h.sublist (keys_sublist _ vs)) key

/-! ### Both forms -/

lemma recordValue_list_iff (h : ListOf vs s) :
    RecordValue shapes d s x ↔ ListForm shapes d s x := by
  refine ⟨fun hs => hs.resolve_left ?_, .inr⟩
  rintro ⟨ms, us, hobject, -⟩
  cases h <;> cases hobject

lemma recordValue_object_iff {ms : List Member} (h : ObjectOf ms s) :
    RecordValue shapes d s x ↔ ObjectForm shapes d s x := by
  refine ⟨fun hs => hs.resolve_right ?_, .inl⟩
  rintro ⟨vs, us, hlist, -⟩
  cases h <;> cases hlist

variable (hshapes : ∀ f ∈ shapes, Values f.value)
include hshapes

lemma listForm_iff (h : IsList vs s) : ListForm shapes d s x ↔
    vs.length ≤ shapes.length ∧ ∃ us,
      List.Forall₂ (fun p u => p.1.value p.2 u) (shapes.zip vs) us ∧ x = updated d us := by
  constructor
  · rintro ⟨ws, us, hws, hlen, hus, hx⟩
    obtain rfl := h.unique ⟨hws, isValue_of_zip hshapes hlen hus⟩
    exact ⟨hlen, us, hus, hx⟩
  · rintro ⟨hlen, us, hus, hx⟩
    exact ⟨vs, us, h.1, hlen, hus, hx⟩

lemma makes_of_object {ms : List Member} (h : IsObject ms o) :
    ObjectForm shapes d o x ↔ Makes shapes d ms x := by
  rw [objectForm_iff]
  constructor
  · rintro ⟨ns, hns, hx⟩
    obtain rfl := h.unique ⟨hns, hx.isValue hshapes⟩
    exact hx
  · exact fun hx => ⟨ms, h.1, hx⟩

/-- **A list says the same as an object** with its elements behind the keys of the first fields. -/
theorem recordValue_forms (hkeys : Keyed shapes) (h : TwoForms (shapes.map Shape.key) s o) :
    RecordValue shapes d s x ↔ RecordValue shapes d o x := by
  obtain ⟨vs, hlen, hs, ho⟩ := h
  rw [List.length_map] at hlen
  rw [recordValue_list_iff hs.1, recordValue_object_iff ho.1, listForm_iff hshapes hs,
    makes_of_object hshapes ho, makes_iff]
  simp only [hkeys.forall₂_iff]
  exact and_congr_left fun _ => iff_of_true hlen fun f _ => hkeys.count_le vs f.keyBytes

/-- A list with more elements than there are fields is no record. -/
theorem not_recordValue_of_long (hlong : shapes.length < vs.length) (hs : IsList vs s) :
    ¬RecordValue shapes d s x := by
  rw [recordValue_list_iff hs.1, listForm_iff hshapes hs]
  rintro ⟨hlen, -⟩
  exact absurd hlen (Nat.not_le.mpr hlong)

end TopicFeed.Json
