import TopicFeed.Proofs.Json.Forms
import TopicFeed.Proofs.Unforged

/-!
Events as lists.

An event may be written as a list, and so may its attachment. Both forms are read by the same
fields, so a list is decoded like the object that has its elements behind the keys in their order.
-/

namespace TopicFeed

open Ascii Json Json.Grammar

namespace Attachment

/-- The keys of an attachment, in their order. -/
def keys : List String := ["name", "type", "size", "expires", "url"]

lemma shapes_keyed : Keyed shapes := by decide +kernel

/-- The text of an attachment, which may be missing. -/
abbrev Value (v : Bytes) (a : Option Attachment) : Prop :=
  NullableValue (RecordValue shapes {}) v a

variable {v w : Bytes} {vs : List Bytes}

/-- What begins with a bracket is an attachment that is there. -/
lemma value_iff {b : Bracket} {t : Bytes} (hv : v = opener b :: t) {a : Option Attachment} :
    Value v a ↔ ∃ x, a = some x ∧ RecordValue shapes {} v x := by
  constructor
  · intro h
    cases h with
    | null => cases b <;> cases hv
    | some h => exact ⟨_, rfl, h⟩
  · rintro ⟨x, rfl, h⟩
    exact .some h

lemma value_forms (h : TwoForms keys v w) (a : Option Attachment) : Value v a ↔ Value w a := by
  obtain ⟨vs, -, hlist, hobject⟩ := id h
  obtain ⟨t, hv, -⟩ := hlist.behind
  obtain ⟨t', hw, -⟩ := hobject.behind
  rw [value_iff (b := .list) hv, value_iff (b := .object) hw]
  simp only [recordValue_forms values_shapes shapes_keyed h]

lemma not_value_of_long (hlong : keys.length < vs.length) (hv : IsList vs v)
    (a : Option Attachment) : ¬Value v a := by
  obtain ⟨t, hopen, -⟩ := hv.behind
  rw [value_iff (b := .list) hopen]
  rintro ⟨x, -, hx⟩
  exact not_recordValue_of_long values_shapes hlong hv hx

end Attachment

namespace Message

/-- The keys of an event, in their order. -/
def keys : List String :=
  ["id", "event", "time", "expires", "topic", "message", "title", "priority", "tags", "click",
    "icon", "attachment"]

lemma shapes_keyed : Keyed shapes := by decide +kernel

variable {line line' : String} {s s' a b : Bytes} {vs : List Bytes} {ms ns : List Member}
  {x : Message}

/-! ### Lines that say the same -/

/-- The line holds the text, and nothing but blanks around it. -/
def HoldsText (line : String) (s : Bytes) : Prop :=
  ∃ a b, Blanks a ∧ Blanks b ∧ Bytes.ofString line = a ++ s ++ b

/-- The line holds a list with these elements, and nothing but blanks around it. -/
def HoldsList (line : String) (vs : List Bytes) : Prop := ∃ s, IsList vs s ∧ HoldsText line s

/-- Wherever they were read, the lines are both refused, or they are decoded to events that differ
in the line alone. -/
def Alike (line line' : String) : Prop :=
  ∀ topicUrl subscriptionId : String,
    (decode line' topicUrl subscriptionId).toOption =
      (decode line topicUrl subscriptionId).toOption.map fun m => { m with raw := line' }

/-- The line is refused, wherever it was read. -/
def Refused (line : String) : Prop :=
  ∀ topicUrl subscriptionId, ∃ f, decode line topicUrl subscriptionId = .error f

lemma HoldsObject.holdsText (h : HoldsObject line ms) :
    ∃ o, IsObject ms o ∧ HoldsText line o := by
  obtain ⟨a, o, b, ha, hb, ho, hline⟩ := h
  exact ⟨o, ho, a, b, ha, hb, hline⟩

/-- A line that holds a value is decoded to the record that the value is. -/
lemma HoldsText.decode_eq_ok_iff (h : HoldsText line s) (hs : IsValue s)
    {topicUrl subscriptionId : String} {m : Message} :
    decode line topicUrl subscriptionId = .ok m ↔
      ∃ x, RecordValue shapes {} s x ∧ m = stamped line topicUrl subscriptionId x := by
  obtain ⟨a, b, ha, hb, hline⟩ := h
  rw [Message.decode_eq_ok_iff]
  refine exists_congr fun x => and_congr_left fun _ => ?_
  constructor
  · rintro ⟨a', v, b', ha', hb', hv, hsplit⟩
    obtain ⟨rfl, -⟩ := isValue_unique ha ha' hs (values_record values_shapes v x hv)
      (stops_of_blanks hb) (stops_of_blanks hb') (hline.symm.trans hsplit)
    exact hv
  · exact fun hv => ⟨a, s, b, ha, hb, hv, hline⟩

lemma toOption_eq_some_iff {ε α : Type} {r : Except ε α} {x : α} :
    r.toOption = some x ↔ r = .ok x := by
  cases r <;> simp [Except.toOption]

lemma alike_of_iff (hs : HoldsText line s) (hs' : HoldsText line' s') (hv : IsValue s)
    (hv' : IsValue s') (h : ∀ x, RecordValue shapes {} s x ↔ RecordValue shapes {} s' x) :
    Alike line line' := by
  intro topicUrl subscriptionId
  refine Option.ext fun m => ?_
  rw [toOption_eq_some_iff, hs'.decode_eq_ok_iff hv', Option.map_eq_some_iff]
  simp only [toOption_eq_some_iff, hs.decode_eq_ok_iff hv, h]
  constructor
  · rintro ⟨x, hx, rfl⟩
    exact ⟨_, ⟨x, hx, rfl⟩, rfl⟩
  · rintro ⟨_, ⟨x, hx, rfl⟩, rfl⟩
    exact ⟨x, hx, rfl⟩

lemma refused_of_not (hs : HoldsText line s) (hv : IsValue s)
    (h : ∀ x, ¬RecordValue shapes {} s x) : Refused line := by
  intro topicUrl subscriptionId
  cases hd : decode line topicUrl subscriptionId with
  | error f => exact ⟨f, rfl⟩
  | ok m =>
    obtain ⟨x, hx, -⟩ := (hs.decode_eq_ok_iff hv).mp hd
    exact absurd hx (h x)

/-- A line that opens neither an object nor a list is refused. -/
lemma refused_of_first (hobject : (skipBlanks (Bytes.ofString line)).head? ≠ some openBrace)
    (hlist : (skipBlanks (Bytes.ofString line)).head? ≠ some openBracket) : Refused line := by
  intro topicUrl subscriptionId
  cases hd : decode line topicUrl subscriptionId with
  | error f => exact ⟨f, rfl⟩
  | ok m =>
    obtain ⟨x, ⟨a, v, b, ha, -, hv, hline⟩, -⟩ := Message.decode_eq_ok_iff.mp hd
    obtain ⟨bracket, t, rfl⟩ := recordValue_open hv
    have hfirst : (skipBlanks (Bytes.ofString line)).head? = some (opener bracket) := by
      rw [hline, List.append_assoc, ((begins_opener bracket t).append b).skipBlanks ha]
      rfl
    cases bracket with
    | list => exact absurd hfirst hlist
    | object => exact absurd hfirst hobject

/-! ### Attachments in either form -/

/-- The bytes of the key of an attachment. -/
def attachmentKey : Bytes := Bytes.ofString "attachment"

/-- Both are members with attachments that are the same. -/
inductive SameAttachment : Member → Member → Prop
  | mk {a b : Bytes} (h : ∀ x, Attachment.Value a x ↔ Attachment.Value b x) :
      SameAttachment (attachmentKey, a) (attachmentKey, b)

lemma SameAttachment.memberValue {m n : Member} (h : SameAttachment m n) {u : Message → Message}
    (hu : MemberValue shapes m u) : n.1 = m.1 ∧ MemberValue shapes n u := by
  obtain ⟨h⟩ := h
  obtain ⟨x, hx, rfl⟩ := (memberValue_attachment _ u).mp hu
  exact ⟨rfl, (memberValue_attachment _ _).mpr ⟨x, (h x).mp hx, rfl⟩⟩

lemma makes_of_sameAttachment (h : ∀ x, Attachment.Value a x ↔ Attachment.Value b x)
    {before behind : List Member}
    (hx : Makes shapes {} (before ++ (attachmentKey, a) :: behind) x) :
    Makes shapes {} (before ++ (attachmentKey, b) :: behind) x :=
  hx.rearranged commutes (fun hmn hu => SameAttachment.memberValue hmn hu)
    (.within before behind (.mk h))

/-- **In an object the attachment may have either form.** -/
theorem recordValue_attachment (h : ∀ x, Attachment.Value a x ↔ Attachment.Value b x)
    {before behind : List Member} (hs : IsObject (before ++ (attachmentKey, a) :: behind) s)
    (hs' : IsObject (before ++ (attachmentKey, b) :: behind) s') :
    RecordValue shapes {} s x ↔ RecordValue shapes {} s' x := by
  rw [recordValue_object_iff hs.1, recordValue_object_iff hs'.1, makes_of_object values_shapes hs,
    makes_of_object values_shapes hs']
  exact ⟨makes_of_sameAttachment h, makes_of_sameAttachment fun x => (h x).symm⟩

/-- An object with such a member is no event if the member is no attachment. -/
lemma not_recordValue_of_attachment (h : ∀ x, ¬Attachment.Value a x)
    (hmem : (attachmentKey, a) ∈ ms) (hs : IsObject ms s) : ¬RecordValue shapes {} s x := by
  rw [recordValue_object_iff hs.1, makes_of_object values_shapes hs, makes_iff]
  rintro ⟨-, us, hus, -⟩
  have hvalue := forall_of_forall₂ (P := fun m => ∃ u, MemberValue shapes m u) hus
    fun m _ u hu => ⟨u, hu⟩
  obtain ⟨u, hu⟩ := hvalue _ hmem
  obtain ⟨y, hy, -⟩ := (memberValue_attachment a u).mp hu
  exact h y hy

/-! ### Lists of twelve -/

lemma plain_keys : ∀ k ∈ keys, ∀ b ∈ Bytes.ofString k, b ≠ quote ∧ b ≠ backslash ∧ 0x20 ≤ b := by
  decide +kernel

/-- Every list of an event has the object with the same values. -/
lemma recordValue_keyed (hlen : vs.length ≤ keys.length) (hs : IsList vs s) :
    RecordValue shapes {} s x ↔ RecordValue shapes {} (written (keyed keys vs)) x :=
  recordValue_forms values_shapes shapes_keyed ⟨vs, hlen, hs, isObject_keyed plain_keys hs.2⟩

/-- The last element of a list of twelve is the attachment. -/
lemma keyed_concat (hlen : vs.length = 11) (a : Bytes) :
    keyed keys (vs ++ [a]) = keyed keys vs ++ [(attachmentKey, a)] := by
  have hsplit : keys.map Bytes.ofString =
      keys.dropLast.map Bytes.ofString ++ [attachmentKey] := by decide +kernel
  have hzip (last : List Bytes) :
      (keys.dropLast.map Bytes.ofString ++ [attachmentKey]).zip (vs ++ last) =
        (keys.dropLast.map Bytes.ofString).zip vs ++ [attachmentKey].zip last :=
    List.zip_append hlen.symm
  have hshort := hzip []
  rw [List.append_nil, List.zip_nil_right, List.append_nil] at hshort
  rw [keyed, keyed, hsplit, hzip [a], hshort]
  rfl

lemma isObject_concat (hlen : vs.length = 11) (hs : IsList (vs ++ [a]) s) :
    IsObject (keyed keys vs ++ [(attachmentKey, a)]) (written (keyed keys (vs ++ [a]))) :=
  keyed_concat hlen a ▸ isObject_keyed plain_keys hs.2

lemma length_concat (hlen : vs.length = 11) (a : Bytes) : (vs ++ [a]).length ≤ keys.length := by
  rw [List.length_append, hlen]
  exact Nat.le_refl 12

/-- **In a list the attachment may have either form.** -/
theorem recordValue_concat (h : ∀ x, Attachment.Value a x ↔ Attachment.Value b x)
    (hlen : vs.length = 11) (hs : IsList (vs ++ [a]) s) (hs' : IsList (vs ++ [b]) s') :
    RecordValue shapes {} s x ↔ RecordValue shapes {} s' x := by
  rw [recordValue_keyed (length_concat hlen a) hs, recordValue_keyed (length_concat hlen b) hs']
  exact recordValue_attachment h (isObject_concat hlen hs) (isObject_concat hlen hs')

lemma not_recordValue_concat (h : ∀ x, ¬Attachment.Value a x) (hlen : vs.length = 11)
    (hs : IsList (vs ++ [a]) s) : ¬RecordValue shapes {} s x := by
  rw [recordValue_keyed (length_concat hlen a) hs]
  exact not_recordValue_of_attachment h (by simp) (isObject_concat hlen hs)

/-! ### Both forms of a line -/

/-- **A list says the same as an object.** Every list of at most twelve values has its object, with
the values behind the first of the keys, and lines that hold the one and the other are decoded to
the same event, but for the line itself, or both are refused. An attachment may have either form,
in an object as well as in a list. A list that is longer than an event, or than an attachment, is
refused whatever its elements are, and so is every line that opens neither an object nor a list. -/
theorem list_form_agrees :
    (∀ vs, vs.length ≤ keys.length → (∀ v ∈ vs, IsValue v) →
      IsList vs (writtenList vs) ∧ IsObject (keyed keys vs) (written (keyed keys vs))) ∧
    (∀ vs line line', vs.length ≤ keys.length → HoldsList line vs →
      HoldsObject line' (keyed keys vs) → Alike line line') ∧
    (∀ a b, TwoForms Attachment.keys a b →
      (∀ before behind line line', HoldsObject line (before ++ (attachmentKey, a) :: behind) →
        HoldsObject line' (before ++ (attachmentKey, b) :: behind) → Alike line line') ∧
      ∀ vs line line', vs.length = 11 → HoldsList line (vs ++ [a]) →
        HoldsList line' (vs ++ [b]) → Alike line line') ∧
    (∀ vs line, keys.length < vs.length → HoldsList line vs → Refused line) ∧
    (∀ vs a, Attachment.keys.length < vs.length → IsList vs a →
      (∀ ms line, (attachmentKey, a) ∈ ms → HoldsObject line ms → Refused line) ∧
      ∀ ws line, ws.length = 11 → HoldsList line (ws ++ [a]) → Refused line) ∧
    ∀ line, (skipBlanks (Bytes.ofString line)).head? ≠ some openBrace →
      (skipBlanks (Bytes.ofString line)).head? ≠ some openBracket → Refused line := by
  refine ⟨?_, ?_, ?_, ?_, ?_, fun line => refused_of_first⟩
  · exact fun vs _ hvs => ⟨isList_written hvs, isObject_keyed plain_keys hvs⟩
  · rintro vs line line' hlen ⟨s, hs, hline⟩ hobject
    obtain ⟨o, ho, hline'⟩ := hobject.holdsText
    exact alike_of_iff hline hline' (hs.1.isValue hs.2) (ho.1.isValue ho.2) fun x =>
      recordValue_forms values_shapes shapes_keyed ⟨vs, hlen, hs, ho⟩
  · intro a b hforms
    have hvalue := Attachment.value_forms hforms
    constructor
    · intro before behind line line' hobject hobject'
      obtain ⟨s, hs, hline⟩ := hobject.holdsText
      obtain ⟨s', hs', hline'⟩ := hobject'.holdsText
      exact alike_of_iff hline hline' (hs.1.isValue hs.2) (hs'.1.isValue hs'.2) fun x =>
        recordValue_attachment hvalue hs hs'
    · rintro vs line line' hlen ⟨s, hs, hline⟩ ⟨s', hs', hline'⟩
      exact alike_of_iff hline hline' (hs.1.isValue hs.2) (hs'.1.isValue hs'.2) fun x =>
        recordValue_concat hvalue hlen hs hs'
  · rintro vs line hlong ⟨s, hs, hline⟩
    exact refused_of_not hline (hs.1.isValue hs.2) fun x =>
      not_recordValue_of_long values_shapes hlong hs
  · intro vs a hlong ha
    have hvalue := Attachment.not_value_of_long hlong ha
    constructor
    · intro ms line hmem hobject
      obtain ⟨s, hs, hline⟩ := hobject.holdsText
      exact refused_of_not hline (hs.1.isValue hs.2) fun x =>
        not_recordValue_of_attachment hvalue hmem hs
    · rintro ws line hlen ⟨s, hs, hline⟩
      exact refused_of_not hline (hs.1.isValue hs.2) fun x =>
        not_recordValue_concat hvalue hlen hs

/-- The values of an attachment without a link. -/
def fileValues : List Bytes := ["\"f\"", "\"text/plain\"", "3", "0"].map Bytes.ofString

/-- The values of an event before its attachment. -/
def plainValues : List Bytes :=
  ["\"a\"", "\"message\"", "1", "2", "\"t\"", "\"m\"", "\"\"", "3", "[\"x\"]", "\"\"", "\"\""].map
    Bytes.ofString

def listLine : String :=
  "[\"a\",\"message\",1,2,\"t\",\"m\",\"\",3,[\"x\"],\"\",\"\",[\"f\",\"text/plain\",3,0]]"

def objectLine : String :=
  " \x7b\"id\":\"a\",\"event\":\"message\",\"time\":1,\"expires\":2,\"topic\":\"t\"," ++
    "\"message\":\"m\",\"title\":\"\",\"priority\":3,\"tags\":[\"x\"]," ++
    "\"click\":\"\",\"icon\":\"\"," ++
    "\"attachment\":[\"f\",\"text/plain\",3,0]\x7d"

/-- The same with the attachment as an object. -/
def keyedLine : String :=
  "\x7b\"id\":\"a\",\"event\":\"message\",\"time\":1,\"expires\":2,\"topic\":\"t\"," ++
    "\"message\":\"m\",\"title\":\"\",\"priority\":3,\"tags\":[\"x\"]," ++
    "\"click\":\"\",\"icon\":\"\"," ++
    "\"attachment\":\x7b\"name\":\"f\",\"type\":\"text/plain\",\"size\":3,\"expires\":0\x7d\x7d\n"

theorem keyed_line_agrees :
    decode keyedLine "https://h/t" "0123456789" = .ok
      { id := "a", event := "message", time := 1, expires := 2, topic := "t", message := "m",
        priority := 3, tags := ["x"],
        attachment := some { name := "f", mimeType := "text/plain", size := 3 },
        topicUrl := "https://h/t", subscriptionId := "0123456789", raw := keyedLine } ∧
      Refused "[0,0,0,0,0,0,0,0,0,0,0,0,0]" ∧ Refused "\x7b\"attachment\":[0,0,0,0,0,0]\x7d" ∧
      Refused " null" := by
  obtain ⟨hexist, hforms, hattachment, hlong, hlongFile, hfirst⟩ := list_form_agrees
  have hvalues : ∀ vs : List Bytes, (∀ v ∈ vs, skipBlanks v = v ∧ skip v = .ok []) →
      ∀ v ∈ vs, IsValue v := fun vs h v hv => isValue_of_skip (h v hv).1 (h v hv).2
  have hfile := hvalues fileValues (by decide +kernel)
  have hzeros : ∀ n, ∀ v ∈ List.replicate n [0x30], IsValue v := fun n =>
    hvalues _ fun v hv => by
      obtain rfl := List.eq_of_mem_replicate hv
      decide +kernel
  have hwhole := hexist (plainValues ++ [writtenList fileValues]) (by decide)
    (hvalues _ (by decide +kernel))
  have hfileForms : TwoForms Attachment.keys (writtenList fileValues)
      (written (keyed Attachment.keys fileValues)) :=
    ⟨fileValues, by decide, isList_written hfile, isObject_keyed (by decide +kernel) hfile⟩
  have hspace : Blanks [space] := List.forall_mem_singleton.mpr rfl
  have hbreak : Blanks [lineFeed] := List.forall_mem_singleton.mpr rfl
  have hlist : HoldsList listLine (plainValues ++ [writtenList fileValues]) :=
    ⟨_, hwhole.1, [], [], blanks_nil, blanks_nil, by decide +kernel⟩
  have hobject : HoldsObject objectLine (keyed keys (plainValues ++ [writtenList fileValues])) :=
    ⟨[space], _, [], hspace, blanks_nil, hwhole.2, by decide +kernel⟩
  have hlength : plainValues.length = 11 := rfl
  have hkeyed : HoldsObject keyedLine (keyed keys plainValues ++
      [(attachmentKey, written (keyed Attachment.keys fileValues))]) :=
    ⟨[], _, [lineFeed], blanks_nil, hbreak, isObject_of_skip (by decide +kernel),
      by decide +kernel⟩
  refine ⟨?_, ?_, ?_, hfirst _ (by decide +kernel) (by decide +kernel)⟩
  · have hlisted := hforms _ listLine objectLine (by decide) hlist hobject
    have hfiled := (hattachment _ _ hfileForms).1 _ [] objectLine keyedLine
      (keyed_concat hlength _ ▸ hobject) hkeyed
    have hdecoded : decode listLine "https://h/t" "0123456789" = .ok
        { id := "a", event := "message", time := 1, expires := 2, topic := "t", message := "m",
          priority := 3, tags := ["x"],
          attachment := some { name := "f", mimeType := "text/plain", size := 3 },
          topicUrl := "https://h/t", subscriptionId := "0123456789", raw := listLine } := by
      decide +kernel
    rw [← toOption_eq_some_iff, hfiled, hlisted, hdecoded]
    rfl
  · exact hlong _ _ (by decide) ⟨_, isList_written (hzeros 13), [], [], blanks_nil, blanks_nil,
      by decide +kernel⟩
  · have hfileLong := hlongFile _ _ (by decide) (isList_written (hzeros 6))
    exact hfileLong.1 [(attachmentKey, _)] _ List.mem_cons_self
      ⟨[], _, [], blanks_nil, blanks_nil, isObject_of_skip (by decide +kernel), by decide +kernel⟩

end Message

end TopicFeed
