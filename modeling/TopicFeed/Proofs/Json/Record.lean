import TopicFeed.Proofs.Json.Scalar
import TopicFeed.Proofs.Utf8

/-!
What the reader of a record reads.

The fields of the reader stand beside the shapes of the grammar, one for one. A key of the wire is
compared after its bytes were read leniently; that is the same as comparing bytes, since the keys of
the fields are ordinary texts. The keys seen so far are carried along, so a key is new at its place
exactly when no field's key occurs twice in the whole object.
-/

namespace TopicFeed.Json

open Ascii Grammar

variable {ρ : Type} {field : Field ρ} {shape : Shape ρ} {fields : List (Field ρ)}
  {shapes : List (Shape ρ)}

/-! ### Fields and shapes -/

/-- The field has the key and the values of the shape, and its key is written without the character
that stands for bytes that are no text. -/
structure Describes (field : Field ρ) (shape : Shape ρ) : Prop where
  key : field.key = shape.key
  reads : field.update.Reads shape.value
  plain : '\uFFFD' ∉ shape.key.toList

lemma describes_of {α : Type} {value : Reader α} {V : Bytes → α → Prop} (h : value.Reads V)
    {key : String} (hkey : '\uFFFD' ∉ key.toList) (put : α → ρ → ρ) :
    Describes (Field.of key value put) (Shape.of key V put) :=
  ⟨rfl, h.map put, hkey⟩

lemma Describes.key_eq_iff (h : Describes field shape) (bytes : Bytes) :
    field.key = Utf8.lenient bytes ↔ shape.keyBytes = bytes := by
  rw [h.key, Shape.keyBytes, eq_comm, Utf8.lenient_eq_iff h.plain, eq_comm]

/-- The field that a key names and the shape with the bytes of that key stand side by side. -/
lemma find_describes (h : List.Forall₂ Describes fields shapes) (bytes : Bytes) :
    (Field.find? fields (Utf8.lenient bytes) = none ∧
      shapes.find? (·.keyBytes == bytes) = none) ∨
    ∃ field shape, Field.find? fields (Utf8.lenient bytes) = some field ∧
      shapes.find? (·.keyBytes == bytes) = some shape ∧ Describes field shape := by
  induction h with
  | nil => exact .inl ⟨rfl, rfl⟩
  | @cons field shape fields shapes hd _ ih =>
    by_cases hkey : shape.keyBytes = bytes
    · have hfield := (hd.key_eq_iff bytes).mpr hkey
      refine .inr ⟨field, shape, ?_, ?_, hd⟩
      · simp [Field.find?, hfield]
      · simp [hkey]
    · have hfield : field.key ≠ Utf8.lenient bytes := fun h => hkey ((hd.key_eq_iff bytes).mp h)
      have hskip : Field.find? (field :: fields) (Utf8.lenient bytes) =
          Field.find? fields (Utf8.lenient bytes) := by
        simp [Field.find?, hfield]
      have hskip' : (shape :: shapes).find? (·.keyBytes == bytes) =
          shapes.find? (·.keyBytes == bytes) := by
        simp [hkey]
      rw [hskip, hskip']
      exact ih

lemma mem_describes (h : List.Forall₂ Describes fields shapes) {shape : Shape ρ}
    (hs : shape ∈ shapes) : ∃ field ∈ fields, Describes field shape := by
  induction h with
  | nil => cases hs
  | @cons field _ _ _ hd _ ih =>
    rcases List.mem_cons.mp hs with rfl | hs
    · exact ⟨field, by simp, hd⟩
    · obtain ⟨field, hfield, hd⟩ := ih hs
      exact ⟨field, List.mem_cons_of_mem _ hfield, hd⟩

lemma key_eq_lenient_iff (h : List.Forall₂ Describes fields shapes) {shape : Shape ρ}
    (hs : shape ∈ shapes) (bytes : Bytes) :
    shape.key = Utf8.lenient bytes ↔ shape.keyBytes = bytes := by
  obtain ⟨field, -, hd⟩ := mem_describes h hs
  rw [← hd.key]
  exact hd.key_eq_iff bytes

/-! ### Keys that are new -/

/-- No key of a shape occurs twice among the given keys and those seen before. -/
def Distinct (shapes : List (Shape ρ)) (seen : List String) (keys : List Bytes) : Prop :=
  ∀ f ∈ shapes, keys.count f.keyBytes ≤ 1 ∧ (f.key ∈ seen → f.keyBytes ∉ keys)

lemma distinct_nil (shapes : List (Shape ρ)) (seen : List String) : Distinct shapes seen [] := by
  intro f _
  exact ⟨by simp, by simp⟩

lemma distinct_nil_iff {keys : List Bytes} :
    Distinct shapes [] keys ↔ ∀ f ∈ shapes, keys.count f.keyBytes ≤ 1 := by
  constructor
  · intro h f hf
    exact (h f hf).1
  · intro h f hf
    exact ⟨h f hf, by simp⟩

/-- The key is new, if it is the key of a shape. -/
def New (shapes : List (Shape ρ)) (seen : List String) (key : Bytes) : Prop :=
  ∀ f ∈ shapes, f.keyBytes = key → f.key ∉ seen

lemma distinct_cons_iff (h : List.Forall₂ Describes fields shapes) {seen : List String}
    {key : Bytes} {keys : List Bytes} :
    Distinct shapes seen (key :: keys) ↔
      New shapes seen key ∧ Distinct shapes (Utf8.lenient key :: seen) keys := by
  constructor
  · intro hd
    refine ⟨?_, ?_⟩
    · intro f hf hkey hseen
      exact (hd f hf).2 hseen (by simp [hkey])
    · intro f hf
      obtain ⟨hcount, hseen⟩ := hd f hf
      rw [List.count_cons] at hcount
      refine ⟨by omega, ?_⟩
      intro hmem
      rcases List.mem_cons.mp hmem with heq | hmem
      · have hkey : f.keyBytes = key := (key_eq_lenient_iff h hf key).mp heq
        rw [hkey] at hcount ⊢
        simp only [beq_self_eq_true, if_true] at hcount
        exact List.count_eq_zero.mp (by omega)
      · exact fun hkeys => hseen hmem (List.mem_cons_of_mem key hkeys)
  · rintro ⟨hnew, hd⟩ f hf
    obtain ⟨hcount, hseen⟩ := hd f hf
    by_cases hkey : f.keyBytes = key
    · have heq := (key_eq_lenient_iff h hf key).mpr hkey
      have hnot : f.keyBytes ∉ keys := hseen (by simp [heq])
      refine ⟨?_, fun hmem => absurd hmem (hnew f hf hkey)⟩
      rw [List.count_cons, List.count_eq_zero.mpr hnot]
      split <;> omega
    · have hne : (key == f.keyBytes) = false := by simpa using Ne.symm hkey
      refine ⟨?_, ?_⟩
      · rw [List.count_cons, hne]
        simpa using hcount
      · intro hmem hkeys
        rcases List.mem_cons.mp hkeys with hkeys | hkeys
        · exact hkey hkeys
        · exact hseen (List.mem_cons_of_mem _ hmem) hkeys

/-! ### Members -/

/-- A key behind its opening quote, and what stands between it and its value. -/
inductive KeyBehind : Bytes → Bytes → Prop
  | mk {raw key b c : Bytes} (hraw : PairedChars raw key) (hb : Blanks b) (hc : Blanks c) :
      KeyBehind key (raw ++ quote :: (b ++ colon :: c))

/-- The value of a member is read as the shape of its key asks for. -/
lemma memberValue_sound (h : List.Forall₂ Describes fields shapes) {seen : List String}
    {key s r : Bytes} {u : ρ → ρ} (hs : memberValue fields seen (Utf8.lenient key) s = .ok (u, r)) :
    New shapes seen key ∧ ∃ b c v, Blanks b ∧ Blanks c ∧ MemberValue shapes (key, v) u ∧
      s = b ++ colon :: (c ++ v ++ r) := by
  unfold memberValue at hs
  unfold MemberValue
  rcases find_describes h key with ⟨hfield, hshape⟩ | ⟨field, shape, hfield, hshape, hd⟩
  · -- no field has the key, and any value may stand behind it
    rw [hfield] at hs
    refine ⟨?_, ?_⟩
    · intro f hf hkey
      have hnone := List.find?_eq_none.mp hshape f hf
      exact absurd (by simpa using hkey) hnone
    · simp only at hs
      split at hs
      · cases hs
      · next t hcolon =>
        obtain ⟨w, hskip, hmap⟩ := ok_of_map hs
        cases hmap
        obtain ⟨b, hb, rfl⟩ := colonAfterKey_sound hcolon
        obtain ⟨c, v, hc, hv, rfl⟩ := skip_sound hskip
        refine ⟨b, c, v, hb, hc, ?_, rfl⟩
        rw [hshape]
        exact ⟨hv, rfl⟩
  · rw [hfield] at hs
    simp only at hs
    split at hs
    · cases hs
    · next hseen =>
      refine ⟨?_, ?_⟩
      · intro f hf hkey
        rw [(key_eq_lenient_iff h hf key).mpr hkey]
        exact hseen
      · split at hs
        · cases hs
        · next t hcolon =>
          obtain ⟨b, hb, rfl⟩ := colonAfterKey_sound hcolon
          obtain ⟨c, v, hc, hv, rfl⟩ := hd.reads.sound hs
          refine ⟨b, c, v, hb, hc, ?_, rfl⟩
          rw [hshape]
          exact hv

lemma memberValue_complete (h : List.Forall₂ Describes fields shapes) {seen : List String}
    {key b c v r : Bytes} {u : ρ → ρ} (hnew : New shapes seen key) (hb : Blanks b) (hc : Blanks c)
    (hv : MemberValue shapes (key, v) u) (hr : Stops r) :
    memberValue fields seen (Utf8.lenient key) (b ++ colon :: (c ++ v ++ r)) = .ok (u, r) := by
  unfold MemberValue at hv
  unfold memberValue
  have hcolon := colonAfterKey_complete hb (c ++ v ++ r)
  rcases find_describes h key with ⟨hfield, hshape⟩ | ⟨field, shape, hfield, hshape, hd⟩
  · rw [hshape] at hv
    obtain ⟨hvalue, rfl⟩ := hv
    simp only [hfield, hcolon, skip_complete hc hvalue hr, Except.map]
  · rw [hshape] at hv
    have hmem : shape ∈ shapes := List.mem_of_find?_eq_some hshape
    have hkey : shape.keyBytes = key := by
      have hbeq := List.find?_some hshape
      simpa using hbeq
    have hseen : Utf8.lenient key ∉ seen := by
      rw [← (key_eq_lenient_iff h hmem key).mpr hkey]
      exact hnew shape hmem hkey
    simp only [hfield, if_neg hseen, hcolon, hd.reads.complete hc hv hr]

lemma member_sound (h : List.Forall₂ Describes fields shapes) {seen : List String} {s r : Bytes}
    {name : String} {u : ρ → ρ} (hs : member fields seen s = .ok ((name, u), r)) :
    ∃ key e v, KeyBehind key e ∧ name = Utf8.lenient key ∧ New shapes seen key ∧
      MemberValue shapes (key, v) u ∧ s = e ++ v ++ r := by
  unfold member at hs
  split at hs
  · cases hs
  · next key t hkey =>
    simp only at hs
    obtain ⟨p, hvalue, hmap⟩ := ok_of_map hs
    cases hmap
    obtain ⟨raw, w, hraw, rfl, hw⟩ := string_kept_sound hkey
    rw [List.reverse_nil, List.nil_append] at hw
    subst hw
    obtain ⟨hnew, b, c, v, hb, hc, hv, ht⟩ := memberValue_sound (u := p.1) (r := p.2) h hvalue
    refine ⟨key, _, v, .mk hraw hb hc, rfl, hnew, hv, ?_⟩
    rw [ht]
    simp

lemma member_complete (h : List.Forall₂ Describes fields shapes) {seen : List String}
    {key e v r : Bytes} {u : ρ → ρ} (hkey : KeyBehind key e) (hnew : New shapes seen key)
    (hv : MemberValue shapes (key, v) u) (hr : Stops r) :
    member fields seen (e ++ v ++ r) = .ok ((Utf8.lenient key, u), r) := by
  obtain ⟨hraw, hb, hc⟩ := hkey
  rename_i raw b c
  have hs : raw ++ quote :: (b ++ colon :: c) ++ v ++ r =
      raw ++ quote :: (b ++ colon :: (c ++ v ++ r)) := by simp
  have hstring := string_kept_complete hraw [] (b ++ colon :: (c ++ v ++ r))
  rw [List.reverse_nil, List.nil_append] at hstring
  simp only [member, hs, hstring, memberValue_complete h hnew hb hc hv hr, Except.map]

/-- What stands behind a member of an object, up to its closing brace. -/
inductive MembersBehind : List Member → Bytes → Prop
  | close {b : Bytes} (hb : Blanks b) : MembersBehind [] (b ++ [closeBrace])
  | more {b a e key v p : Bytes} {ms : List Member} (hb : Blanks b) (ha : Blanks a)
      (he : KeyBehind key e) (hp : MembersBehind ms p) :
      MembersBehind ((key, v) :: ms) (b ++ comma :: (a ++ quote :: (e ++ v ++ p)))

lemma MembersBehind.stops {ms : List Member} {p : Bytes} (h : MembersBehind ms p) (r : Bytes) :
    Stops (p ++ r) := by
  cases h with
  | close hb =>
    rw [List.append_assoc]
    exact stops_append hb (stops_close .object r)
  | more hb _ _ _ =>
    rw [List.append_assoc]
    exact stops_append hb (stops_comma _)

lemma KeyBehind.memberText {key e a v d : Bytes} (h : KeyBehind key e) (ha : Blanks a)
    (hd : Blanks d) : MemberText (key, v) (a ++ quote :: (e ++ v ++ d)) := by
  obtain ⟨hraw, hb, hc⟩ := h
  have htext := MemberText.mk (v := v) ha ⟨_, hraw, rfl⟩ hb hc hd
  simpa using htext

lemma MemberText.behind {m : Member} {s : Bytes} (h : MemberText m s) :
    ∃ a key e v d, Blanks a ∧ KeyBehind key e ∧ Blanks d ∧ m = (key, v) ∧
      s = a ++ quote :: (e ++ v ++ d) := by
  obtain ⟨ha, ⟨raw, hraw, rfl⟩, hb, hc, hd⟩ := h
  exact ⟨_, _, _, _, _, ha, .mk hraw hb hc, hd, rfl, by simp⟩

lemma MembersBehind.members {ms : List Member} {p : Bytes} (h : MembersBehind ms p)
    {a key e : Bytes} (ha : Blanks a) (he : KeyBehind key e) (v : Bytes) :
    ∃ s, Members ((key, v) :: ms) s ∧ a ++ quote :: (e ++ v ++ p) = s ++ [closeBrace] := by
  induction h generalizing a key e v with
  | close hb => exact ⟨_, .one (he.memberText ha hb), by simp⟩
  | more hb ha' he' _ ih =>
    obtain ⟨s, hs, heq⟩ := ih ha' he' _
    exact ⟨_, .more (he.memberText ha hb) hs, by rw [heq]; simp⟩

lemma Members.behind {ms : List Member} {s : Bytes} (h : Members ms s) :
    ∃ a key e v ns p, Blanks a ∧ KeyBehind key e ∧ MembersBehind ns p ∧ ms = (key, v) :: ns ∧
      s ++ [closeBrace] = a ++ quote :: (e ++ v ++ p) := by
  induction h with
  | one hm =>
    obtain ⟨a, key, e, v, d, ha, he, hd, rfl, rfl⟩ := MemberText.behind hm
    exact ⟨a, key, e, v, [], d ++ [closeBrace], ha, he, .close hd, rfl, by simp⟩
  | @more m ms s t hm _ ih =>
    obtain ⟨a, key, e, v, d, ha, he, hd, rfl, rfl⟩ := MemberText.behind hm
    obtain ⟨a', key', e', v', ns, p, ha', he', hp, rfl, heq⟩ := ih
    refine ⟨a, key, e, v, (key', v') :: ns, d ++ comma :: (a' ++ quote :: (e' ++ v' ++ p)), ha, he,
      .more hd ha' he' hp, rfl, ?_⟩
    rw [← heq]
    simp

/-- An object is empty, or it has a first member with the others behind it. -/
theorem objectOf_iff {ms : List Member} {s : Bytes} :
    ObjectOf ms s ↔
      (ms = [] ∧ ∃ a, Blanks a ∧ s = openBrace :: (a ++ [closeBrace])) ∨
      ∃ a key e v ns p, Blanks a ∧ KeyBehind key e ∧ MembersBehind ns p ∧ ms = (key, v) :: ns ∧
        s = openBrace :: (a ++ quote :: (e ++ v ++ p)) := by
  constructor
  · intro h
    cases h with
    | empty ha => exact .inl ⟨rfl, _, ha, rfl⟩
    | full hs =>
      obtain ⟨a, key, e, v, ns, p, ha, he, hp, hms, heq⟩ := Members.behind hs
      exact .inr ⟨a, key, e, v, ns, p, ha, he, hp, hms, by rw [← heq]; rfl⟩
  · rintro (⟨rfl, a, ha, rfl⟩ | ⟨a, key, e, v, ns, p, ha, he, hp, rfl, rfl⟩)
    · exact .empty ha
    · obtain ⟨s, hs, heq⟩ := hp.members ha he v
      rw [heq]
      exact .full hs

/-! ### The object form -/

/-- The updates of a record, one after the other. -/
abbrev updated (value : ρ) (us : List (ρ → ρ)) : ρ := us.foldl (fun x u => u x) value

lemma moreMembers_sound (h : List.Forall₂ Describes fields shapes) {seen : List String}
    {value x : ρ} {s r : Bytes} (hs : moreMembers fields seen value s = .ok (x, r)) :
    ∃ ms us p, MembersBehind ms p ∧ Distinct shapes seen (ms.map (·.1)) ∧
      List.Forall₂ (MemberValue shapes) ms us ∧ x = updated value us ∧ s = p ++ r := by
  fun_induction moreMembers fields seen value s with
  | case1 => cases hs
  | case2 seen value s t heq =>
    cases hs
    obtain ⟨b, hb, rfl⟩ := skipBlanks_sound heq
    exact ⟨[], [], b ++ [closeBrace], .close hb, distinct_nil shapes seen, .nil, rfl, by simp⟩
  | case3 => cases hs
  | case4 => cases hs
  | case5 seen value s d u name update w hread heq _ hquote ih =>
    obtain ⟨ms, us, p, hp, hdistinct, hus, rfl, rfl⟩ := ih hs
    obtain ⟨b, hb, rfl⟩ := skipBlanks_sound heq
    obtain ⟨a, ha, rfl⟩ := skipBlanks_sound hquote
    obtain ⟨key, e, v, he, rfl, hnew, hv, rfl⟩ := member_sound h hread
    refine ⟨(key, v) :: ms, update :: us, _, .more hb ha he hp, ?_, .cons hv hus, rfl, by simp⟩
    exact (distinct_cons_iff h).mpr ⟨hnew, hdistinct⟩
  | case6 => cases hs
  | case7 => cases hs
  | case8 => cases hs

lemma moreMembers_close {b : Bytes} (hb : Blanks b) (seen : List String) (value : ρ) (r : Bytes) :
    moreMembers fields seen value (b ++ closeBrace :: r) = .ok (value, r) := by
  have hclose : skipBlanks (b ++ closeBrace :: r) = closeBrace :: r := skipBlanks_upTo hb rfl _
  rw [moreMembers]
  split
  · next h' => rw [hclose] at h'; cases h'
  · next h' =>
    rw [hclose] at h'
    cases h'
    rw [if_pos rfl]

lemma moreMembers_member {seen : List String} {b a s r : Bytes} {name : String} {u : ρ → ρ}
    (hb : Blanks b) (ha : Blanks a) (hm : member fields seen s = .ok ((name, u), r)) (value : ρ) :
    moreMembers fields seen value (b ++ comma :: (a ++ quote :: s)) =
      moreMembers fields (name :: seen) (u value) r := by
  have hcomma : skipBlanks (b ++ comma :: (a ++ quote :: s)) = comma :: (a ++ quote :: s) :=
    skipBlanks_upTo hb rfl _
  have hquote : skipBlanks (a ++ quote :: s) = quote :: s := skipBlanks_upTo ha rfl _
  rw [moreMembers]
  split
  · next h' => rw [hcomma] at h'; cases h'
  · next h' =>
    rw [hcomma] at h'
    cases h'
    rw [if_neg (by decide), if_pos rfl]
    split
    · next h' => rw [hquote] at h'; cases h'
    · next h' =>
      rw [hquote] at h'
      cases h'
      rw [if_pos rfl]
      split
      · next h' => rw [hm] at h'; cases h'
      · next h' =>
        rw [hm] at h'
        cases h'
        rfl

lemma moreMembers_complete (h : List.Forall₂ Describes fields shapes) {ms : List Member}
    {us : List (ρ → ρ)} {seen : List String} {p : Bytes} (hp : MembersBehind ms p)
    (hdistinct : Distinct shapes seen (ms.map (·.1)))
    (hus : List.Forall₂ (MemberValue shapes) ms us) (value : ρ) (r : Bytes) :
    moreMembers fields seen value (p ++ r) = .ok (updated value us, r) := by
  induction hp generalizing us seen value with
  | close hb =>
    cases hus
    rw [List.append_assoc]
    exact moreMembers_close hb seen value r
  | @more b a e key v p ms hb ha he hp ih =>
    cases hus with
    | @cons _ u _ us hv hus =>
      obtain ⟨hnew, hdistinct⟩ := (distinct_cons_iff h).mp hdistinct
      have hm := member_complete h he hnew hv (hp.stops r)
      have hsplit : b ++ comma :: (a ++ quote :: (e ++ v ++ p)) ++ r =
          b ++ comma :: (a ++ quote :: (e ++ v ++ (p ++ r))) := by simp
      rw [hsplit, moreMembers_member hb ha hm, ih hdistinct hus]
      rfl

lemma objectForm_sound (h : List.Forall₂ Describes fields shapes) {value x : ρ} {s r : Bytes}
    (hs : objectForm fields value s = .ok (x, r)) :
    ∃ o, ObjectForm shapes value o x ∧ openBrace :: s = o ++ r := by
  unfold objectForm at hs
  split at hs
  · cases hs
  · next c t heq =>
    obtain ⟨a, ha, rfl⟩ := skipBlanks_sound heq
    split at hs
    · next hc =>
      subst hc
      cases hs
      refine ⟨_, ⟨[], [], .empty ha, ?_, .nil, rfl⟩, by simp⟩
      exact distinct_nil_iff.mp (distinct_nil shapes [])
    · split at hs
      · next hc =>
        subst hc
        split at hs
        · cases hs
        · next name u w hm =>
          obtain ⟨key, e, v, he, rfl, hnew, hv, rfl⟩ := member_sound h hm
          obtain ⟨ms, us, p, hp, hdistinct, hus, rfl, rfl⟩ := moreMembers_sound h hs
          have hobject : ObjectOf ((key, v) :: ms) (openBrace :: (a ++ quote :: (e ++ v ++ p))) :=
            objectOf_iff.mpr (.inr ⟨a, key, e, v, ms, p, ha, he, hp, rfl, rfl⟩)
          have hkeys : Distinct shapes [] (key :: ms.map (·.1)) :=
            (distinct_cons_iff h).mpr ⟨hnew, hdistinct⟩
          exact ⟨_, ⟨_, u :: us, hobject, distinct_nil_iff.mp hkeys, .cons hv hus, rfl⟩, by simp⟩
      · cases hs

lemma objectForm_complete (h : List.Forall₂ Describes fields shapes) {value x : ρ} {o : Bytes}
    (ho : ObjectForm shapes value o x) (r : Bytes) :
    ∃ s, o = openBrace :: s ∧ objectForm fields value (s ++ r) = .ok (x, r) := by
  obtain ⟨ms, us, hobject, hkeys, hus, rfl⟩ := ho
  rcases objectOf_iff.mp hobject with
    ⟨rfl, a, ha, rfl⟩ | ⟨a, key, e, v, ms, p, ha, he, hp, rfl, rfl⟩
  · cases hus
    have hclose : skipBlanks (a ++ [closeBrace] ++ r) = closeBrace :: r := by
      rw [List.append_assoc]
      exact skipBlanks_upTo ha rfl r
    refine ⟨_, rfl, ?_⟩
    simp only [objectForm, hclose, if_true]
    rfl
  · cases hus with
    | @cons _ u _ us hv hus =>
      obtain ⟨hnew, hdistinct⟩ := (distinct_cons_iff h).mp (distinct_nil_iff.mpr hkeys)
      have hm := member_complete h he hnew hv (hp.stops r)
      have hquote : skipBlanks (a ++ quote :: (e ++ v ++ p) ++ r) =
          quote :: (e ++ v ++ (p ++ r)) := by
        have hsplit : a ++ quote :: (e ++ v ++ p) ++ r = a ++ quote :: (e ++ v ++ (p ++ r)) := by
          simp
        rw [hsplit, skipBlanks_upTo ha rfl]
      have hne : quote ≠ closeBrace := by decide
      refine ⟨_, rfl, ?_⟩
      simp only [objectForm, hquote, if_neg hne, if_true, hm,
        moreMembers_complete h hp hdistinct hus]
      rfl

/-! ### The list form -/

lemma listEnd_sound {s r : Bytes} (h : listEnd s = .ok r) :
    ∃ b, Blanks b ∧ s = b ++ closeBracket :: r := by
  unfold listEnd at h
  split at h
  · cases h
  · next c t heq =>
    obtain ⟨b, hb, rfl⟩ := skipBlanks_sound heq
    split at h
    · next hc =>
      cases h
      exact ⟨b, hb, by rw [hc]⟩
    · split at h <;> cases h

lemma listEnd_complete {b : Bytes} (hb : Blanks b) (r : Bytes) :
    listEnd (b ++ closeBracket :: r) = .ok r := by
  have hclose : skipBlanks (b ++ closeBracket :: r) = closeBracket :: r := skipBlanks_upTo hb rfl _
  simp only [listEnd, hclose, if_true]

/-- The elements are the values of the first shapes, in order. -/
def InOrder (shapes : List (Shape ρ)) (vs : List Bytes) (us : List (ρ → ρ)) : Prop :=
  vs.length ≤ shapes.length ∧ List.Forall₂ (fun p u => p.1.value p.2 u) (shapes.zip vs) us

lemma inOrder_nil (shapes : List (Shape ρ)) : InOrder shapes [] [] := by
  refine ⟨Nat.zero_le _, ?_⟩
  rw [List.zip_nil_right]
  exact .nil

lemma inOrder_cons_iff {v : Bytes} {vs : List Bytes} {us : List (ρ → ρ)} :
    InOrder (shape :: shapes) (v :: vs) us ↔
      ∃ u ws, us = u :: ws ∧ shape.value v u ∧ InOrder shapes vs ws := by
  constructor
  · rintro ⟨hlen, hus⟩
    cases hus with
    | cons hv hus => exact ⟨_, _, rfl, hv, by simpa using hlen, hus⟩
  · rintro ⟨u, ws, rfl, hv, hlen, hws⟩
    exact ⟨by simpa using hlen, .cons hv hws⟩

lemma inOrder_nil_iff {vs : List Bytes} {us : List (ρ → ρ)} :
    InOrder ([] : List (Shape ρ)) vs us ↔ vs = [] ∧ us = [] := by
  constructor
  · rintro ⟨hlen, hus⟩
    have hvs : vs = [] := List.length_eq_zero_iff.mp (Nat.le_zero.mp hlen)
    subst hvs
    cases hus
    exact ⟨rfl, rfl⟩
  · rintro ⟨rfl, rfl⟩
    exact inOrder_nil _

lemma moreItems_sound (h : List.Forall₂ Describes fields shapes) {value x : ρ} {s r : Bytes}
    (hs : moreItems value fields s = .ok (x, r)) :
    ∃ vs us p, ElementsBehind vs p ∧ InOrder shapes vs us ∧ x = updated value us ∧
      s = p ++ r := by
  induction h generalizing value s with
  | nil =>
    simp only [moreItems] at hs
    obtain ⟨w, hend, hmap⟩ := ok_of_map hs
    cases hmap
    obtain ⟨b, hb, rfl⟩ := listEnd_sound hend
    exact ⟨[], [], _, .close hb, inOrder_nil [], rfl, by simp⟩
  | cons hd _ ih =>
    simp only [moreItems] at hs
    split at hs
    · cases hs
    · next c t heq =>
      obtain ⟨b, hb, rfl⟩ := skipBlanks_sound heq
      split at hs
      · next hc =>
        subst hc
        cases hs
        exact ⟨[], [], _, .close hb, inOrder_nil _, rfl, by simp⟩
      · split at hs
        · next hc =>
          subst hc
          split at hs
          · cases hs
          · next d w hdw =>
            obtain ⟨a, ha, rfl⟩ := skipBlanks_sound hdw
            split at hs
            · cases hs
            · split at hs
              · cases hs
              · next u z hread =>
                obtain ⟨f, v, hf, hv, hcons⟩ := hd.reads.sound hread
                obtain ⟨vs, us, p, hp, hus, rfl, rfl⟩ := ih hs
                have hlast : ElementsBehind (v :: vs) (b ++ comma :: (a ++ f ++ v ++ p)) :=
                  .more hb (blanks_append ha hf) hp
                refine ⟨v :: vs, u :: us, _, hlast, inOrder_cons_iff.mpr ⟨u, us, rfl, hv, hus⟩,
                  rfl, ?_⟩
                rw [hcons]
                simp
        · cases hs

lemma moreItems_complete (h : List.Forall₂ Describes fields shapes) {vs : List Bytes}
    {us : List (ρ → ρ)} {p : Bytes} (hp : ElementsBehind vs p) (hus : InOrder shapes vs us)
    (value : ρ) (r : Bytes) : moreItems value fields (p ++ r) = .ok (updated value us, r) := by
  induction hp generalizing fields shapes us value with
  | @close b hb =>
    have hempty : us = [] := by
      obtain ⟨-, hus⟩ := hus
      rw [List.zip_nil_right] at hus
      cases hus
      rfl
    subst hempty
    have hsplit : b ++ [closeBracket] ++ r = b ++ closeBracket :: r := by simp
    have hclose : skipBlanks (b ++ closeBracket :: r) = closeBracket :: r :=
      skipBlanks_upTo hb rfl _
    rw [hsplit]
    cases h with
    | nil => simp only [moreItems, listEnd_complete hb, Except.map]; rfl
    | cons _ _ => simp only [moreItems, hclose, if_true]; rfl
  | @more b a v p vs hb ha hp ih =>
    cases h with
    | nil =>
      obtain ⟨hvs, -⟩ := inOrder_nil_iff.mp hus
      cases hvs
    | cons hd hrest =>
      obtain ⟨u, ws, rfl, hv, hws⟩ := inOrder_cons_iff.mp hus
      have hsplit : b ++ comma :: (a ++ v ++ p) ++ r = b ++ comma :: (a ++ v ++ (p ++ r)) := by simp
      have hcomma : skipBlanks (b ++ comma :: (a ++ v ++ (p ++ r))) =
          comma :: (a ++ v ++ (p ++ r)) := skipBlanks_upTo hb rfl _
      have hne : comma ≠ closeBracket := by decide
      obtain ⟨d, w, hvalue, hd', hread⟩ := hd.reads.first ha hv (hp.stops r)
      simp only [moreItems, hsplit, hcomma, if_neg hne, if_true, hvalue, if_neg hd', hread,
        ih hrest hws]
      rfl

lemma listForm_of_empty {a : Bytes} (ha : Blanks a) (fields : List (Field ρ)) (value : ρ)
    (r : Bytes) : listForm fields value (a ++ closeBracket :: r) = .ok (value, r) := by
  have hclose : skipBlanks (a ++ closeBracket :: r) = closeBracket :: r := skipBlanks_upTo ha rfl _
  cases fields with
  | nil => simp only [listForm, listEnd_complete ha, Except.map]
  | cons field fields => simp only [listForm, hclose, if_true]

lemma listForm_sound (h : List.Forall₂ Describes fields shapes) {value x : ρ} {s r : Bytes}
    (hs : listForm fields value s = .ok (x, r)) :
    ∃ o, ListForm shapes value o x ∧ openBracket :: s = o ++ r := by
  have hempty : ∀ a, Blanks a →
      ListForm shapes value (openBracket :: (a ++ [closeBracket])) value := by
    intro a ha
    obtain ⟨hlen, hus⟩ := inOrder_nil shapes
    exact ⟨[], [], .empty ha, hlen, hus, rfl⟩
  cases h with
  | nil =>
    simp only [listForm] at hs
    obtain ⟨w, hend, hmap⟩ := ok_of_map hs
    cases hmap
    obtain ⟨a, ha, rfl⟩ := listEnd_sound hend
    exact ⟨_, hempty a ha, by simp⟩
  | @cons field shape fields shapes hd hrest =>
    simp only [listForm] at hs
    split at hs
    · cases hs
    · next c t heq =>
      obtain ⟨a, ha, rfl⟩ := skipBlanks_sound heq
      split at hs
      · next hc =>
        subst hc
        cases hs
        exact ⟨_, hempty a ha, by simp⟩
      · split at hs
        · cases hs
        · next u w hread =>
          obtain ⟨f, v, hf, hv, hcons⟩ := hd.reads.sound hread
          obtain ⟨vs, us, p, hp, hus, rfl, rfl⟩ := moreItems_sound hrest hs
          obtain ⟨hlen, hus⟩ := inOrder_cons_iff.mpr ⟨u, us, rfl, hv, hus⟩
          have hlist : ListOf (v :: vs) (openBracket :: (a ++ f ++ v ++ p)) :=
            listOf_iff.mpr (.inr ⟨a ++ f, v, vs, p, blanks_append ha hf, hp, rfl, rfl⟩)
          refine ⟨_, ⟨v :: vs, u :: us, hlist, hlen, hus, rfl⟩, ?_⟩
          rw [hcons]
          simp

lemma listForm_complete (h : List.Forall₂ Describes fields shapes) {value x : ρ} {o : Bytes}
    (ho : ListForm shapes value o x) (r : Bytes) :
    ∃ s, o = openBracket :: s ∧ listForm fields value (s ++ r) = .ok (x, r) := by
  obtain ⟨vs, us, hlist, hlen, hus, rfl⟩ := ho
  have horder : InOrder shapes vs us := ⟨hlen, hus⟩
  rcases listOf_iff.mp hlist with ⟨rfl, a, ha, rfl⟩ | ⟨a, v, vs, p, ha, hp, rfl, rfl⟩
  · rw [List.zip_nil_right] at hus
    cases hus
    refine ⟨_, rfl, ?_⟩
    rw [List.append_assoc]
    exact listForm_of_empty ha fields value r
  · cases h with
    | nil =>
      obtain ⟨hvs, -⟩ := inOrder_nil_iff.mp horder
      cases hvs
    | cons hd hrest =>
      obtain ⟨u, us, rfl, hv, horder⟩ := inOrder_cons_iff.mp horder
      obtain ⟨d, w, hvalue, hne, hread⟩ := hd.reads.first ha hv (hp.stops r)
      refine ⟨_, rfl, ?_⟩
      rw [List.append_assoc]
      simp only [listForm, hvalue, if_neg hne, hread, moreItems_complete hrest hp horder]
      rfl

/-! ### Both forms -/

lemma listForm_open {default x : ρ} {v : Bytes} (h : ListForm shapes default v x) :
    ∃ t, v = openBracket :: t := by
  obtain ⟨vs, us, hlist, -⟩ := h
  cases hlist with
  | empty _ => exact ⟨_, rfl⟩
  | full _ => exact ⟨_, rfl⟩

lemma recordValue_open {default x : ρ} {v : Bytes} (h : RecordValue shapes default v x) :
    ∃ b t, v = opener b :: t := by
  rcases h with ⟨ms, us, hobject, -⟩ | hl
  · cases hobject with
    | empty _ => exact ⟨.object, _, rfl⟩
    | full _ => exact ⟨.object, _, rfl⟩
  · obtain ⟨t, rfl⟩ := listForm_open hl
    exact ⟨.list, t, rfl⟩

lemma recordValue_close {default x : ρ} {v : Bytes} (h : RecordValue shapes default v x) :
    ∃ u b, v = u ++ [Bracket.close b] := by
  rcases h with ⟨ms, us, hobject, -⟩ | ⟨vs, us, hlist, -⟩
  · cases hobject with
    | empty _ => exact ⟨_, .object, rfl⟩
    | full _ => exact ⟨_, .object, rfl⟩
  · cases hlist with
    | empty _ => exact ⟨_, .list, rfl⟩
    | full _ => exact ⟨_, .list, rfl⟩

/-- A record is read to its closing bracket, whatever stands behind it. -/
lemma readRecord_complete (h : List.Forall₂ Describes fields shapes) (name : String)
    {default x : ρ} {a v : Bytes} (ha : Blanks a) (hv : RecordValue shapes default v x)
    (t : Bytes) : readRecord name fields default (a ++ v ++ t) = .ok (x, t) := by
  rcases hv with ho | ho
  · obtain ⟨s, rfl, hs⟩ := objectForm_complete h ho t
    have hfirst := ((begins_opener .object s).append t).skipBlanks ha
    simp only [opener, List.cons_append] at hfirst
    simp only [readRecord, List.append_assoc, List.cons_append, hfirst, if_true, hs]
  · obtain ⟨s, rfl, hs⟩ := listForm_complete h ho t
    have hfirst := ((begins_opener .list s).append t).skipBlanks ha
    have hne : openBracket ≠ openBrace := by decide
    simp only [opener, List.cons_append] at hfirst
    simp only [readRecord, List.append_assoc, List.cons_append, hfirst, if_neg hne, if_true, hs]

/-- **A record reader takes the records of the grammar**, if its fields are described. -/
theorem Reader.reads_record (h : List.Forall₂ Describes fields shapes) (name : String)
    (default : ρ) : (Reader.record name fields default).Reads (RecordValue shapes default) where
  begins := by
    intro v x hv
    obtain ⟨b, t, rfl⟩ := recordValue_open hv
    exact begins_opener b t
  sound := by
    intro s t x hs
    simp only [Reader.record, readRecord] at hs
    split at hs
    · cases hs
    · next c u heq =>
      obtain ⟨a, ha, rfl⟩ := skipBlanks_sound heq
      split at hs
      · next hc =>
        obtain ⟨o, ho, hou⟩ := objectForm_sound h hs
        exact ⟨a, o, ha, .inl ho, by rw [hc, hou, List.append_assoc]⟩
      · split at hs
        · next hc =>
          obtain ⟨o, ho, hou⟩ := listForm_sound h hs
          exact ⟨a, o, ha, .inr ho, by rw [hc, hou, List.append_assoc]⟩
        · cases hs
  complete := fun ha hv _ => readRecord_complete h name ha hv _

/-! ### Whole texts -/

/-- A text is taken if it is a value with nothing but blanks around it. -/
theorem readWhole_eq_ok_iff {α : Type} {value : Reader α} {V : Bytes → α → Prop}
    (h : value.Reads V) {s : Bytes} {x : α} :
    readWhole value s = .ok x ↔ ∃ a v b, Blanks a ∧ Blanks b ∧ V v x ∧ s = a ++ v ++ b := by
  constructor
  · intro hs
    unfold readWhole at hs
    split at hs
    · cases hs
    · next y r hread =>
      obtain ⟨a, v, ha, hv, rfl⟩ := h.sound hread
      split at hs
      · next hr =>
        cases hs
        exact ⟨a, v, r, ha, blanks_of_skipBlanks_eq_nil hr, hv, rfl⟩
      · cases hs
  · rintro ⟨a, v, b, ha, hb, hv, rfl⟩
    have hstops : Stops b := by simpa using stops_append hb (s := []) trivial
    have hnil : skipBlanks b = [] := by
      rw [← List.append_nil b, skipBlanks_append hb]
      rfl
    simp only [readWhole, h.complete ha hv hstops, hnil]

end TopicFeed.Json
