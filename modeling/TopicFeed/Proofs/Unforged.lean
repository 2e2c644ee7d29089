import TopicFeed.Proofs.Truncation
import TopicFeed.Proofs.Json.Members

/-!
What a line cannot do.

An event is told member by member. So the order of its members says nothing, nor does a member with
a key that is no key of an event; and the same holds inside its attachment. What the client adds
itself has no key on the wire, so no line can say it.
-/

namespace TopicFeed

open Ascii Json Json.Grammar

namespace Attachment

variable {a : Attachment} {v : Bytes}

lemma commutes : shapes.Pairwise Commutes := by
  simp only [shapes, List.pairwise_cons, List.forall_mem_cons, List.not_mem_nil, false_implies,
    implies_true, List.Pairwise.nil, and_true]
  and_intros
  all_goals
    refine commutes_of ?_ _ _ _ _
    intro _ _ _
    rfl

/-- The attachment has no uploader. -/
def Unowned (a : Attachment) : Prop := a.owner = ""

lemma unowned_of_recordValue (h : RecordValue shapes {} v a) : a.Unowned := by
  have hkeeps : ∀ f ∈ shapes, Keeps Unowned f := by
    simp only [shapes, List.forall_mem_cons, List.not_mem_nil, false_implies, implies_true,
      and_true]
    and_intros
    all_goals
      refine keeps_of ?_ _
      intro _ _ _ _ h
      exact h
  have hdefault : Unowned {} := rfl
  exact recordValue_keeps hkeeps hdefault h

end Attachment

namespace Message

variable {line topicUrl subscriptionId : String} {m x : Message} {ms ns : List Member}
  {v w : Bytes}

lemma commutes : shapes.Pairwise Commutes := by
  simp only [shapes, List.pairwise_cons, List.forall_mem_cons, List.not_mem_nil, false_implies,
    implies_true, List.Pairwise.nil, and_true]
  and_intros
  all_goals
    refine commutes_of ?_ _ _ _ _
    intro _ _ _
    rfl

/-- No attachment of the event has an uploader. -/
def Unowned (m : Message) : Prop := ∀ a ∈ m.attachment, a.Unowned

lemma unowned_of_recordValue (h : RecordValue shapes {} v x) : x.Unowned := by
  have hattachment : ∀ s a (m : Message), NullableValue (RecordValue Attachment.shapes {}) s a →
      Unowned m → Unowned { m with attachment := a } := by
    intro s a m ha _
    cases ha with
    | null => rintro _ ⟨⟩
    | some ha =>
      rintro _ ⟨⟩
      exact Attachment.unowned_of_recordValue ha
  have hkeeps : ∀ f ∈ shapes, Keeps Unowned f := by
    simp only [shapes, List.forall_mem_cons, List.not_mem_nil, false_implies, implies_true,
      and_true]
    and_intros
    all_goals
      refine keeps_of ?_ _
      first
      | exact hattachment
      | -- the other fields leave the attachment as it is
        intro _ _ _ _ h
        exact h
  exact recordValue_keeps hkeeps (by rintro _ ⟨⟩) h

/-! ### The members of a line -/

/-- The line holds an object with these members, and nothing but blanks around it. -/
def HoldsObject (line : String) (ms : List Member) : Prop :=
  ∃ a v b, Blanks a ∧ Blanks b ∧ IsObject ms v ∧ Bytes.ofString line = a ++ v ++ b

lemma HoldsObject.unique (hms : HoldsObject line ms) (hns : HoldsObject line ns) : ms = ns := by
  obtain ⟨a, v, b, ha, hb, hv, hline⟩ := hms
  obtain ⟨a', v', b', ha', hb', hv', hline'⟩ := hns
  obtain ⟨rfl, -⟩ := isValue_unique ha ha' (hv.1.isValue hv.2) (hv'.1.isValue hv'.2)
    (stops_of_blanks hb) (stops_of_blanks hb') (hline.symm.trans hline')
  exact hv.unique hv'

/-- A line that opens an object and is decoded holds members, and they make the event. -/
lemma exists_members {before rest : Bytes} (hbefore : Blanks before)
    (hline : Bytes.ofString line = before ++ openBrace :: rest)
    (h : decode line topicUrl subscriptionId = .ok m) :
    ∃ ms x, HoldsObject line ms ∧ Makes shapes {} ms x ∧
      m = stamped line topicUrl subscriptionId x := by
  obtain ⟨x, ⟨a, v, b, ha, hb, hv | hv, hsplit⟩, rfl⟩ := decode_eq_ok_iff.mp h
  · obtain ⟨ms, hms, hx⟩ := objectForm_iff.mp hv
    exact ⟨ms, x, ⟨a, v, b, ha, hb, ⟨hms, hx.isValue values_shapes⟩, hsplit⟩, hx, rfl⟩
  · -- a list would begin with another bracket
    obtain ⟨t, rfl⟩ := listForm_open hv
    have hfirst : skipBlanks (Bytes.ofString line) = openBrace :: rest := by
      rw [hline, skipBlanks_upTo hbefore rfl]
    rw [hsplit, List.append_assoc, skipBlanks_append ha] at hfirst
    cases hfirst

lemma decode_of_members (hline : HoldsObject line ms) (hx : Makes shapes {} ms x)
    (topicUrl subscriptionId : String) :
    decode line topicUrl subscriptionId = .ok (stamped line topicUrl subscriptionId x) := by
  obtain ⟨a, v, b, ha, hb, hv, hsplit⟩ := hline
  exact decode_eq_ok_iff.mpr
    ⟨x, ⟨a, v, b, ha, hb, .inl (objectForm_iff.mpr ⟨ms, hv.1, hx⟩), hsplit⟩, rfl⟩

/-! ### Members in another order -/

/-- An attachment that is an object, and the same with its members rearranged. -/
inductive AttachmentRearranged : Member → Member → Prop
  | mk {v w : Bytes} {ms ns : List Member} (hms : IsObject ms v) (hns : IsObject ns w)
      (h : Rearranged Attachment.shapes (fun _ _ => False) ms ns) :
      AttachmentRearranged (Bytes.ofString "attachment", v) (Bytes.ofString "attachment", w)

lemma memberValue_attachment (v : Bytes) (u : Message → Message) :
    MemberValue shapes (Bytes.ofString "attachment", v) u ↔
      ∃ a, NullableValue (RecordValue Attachment.shapes {}) v a ∧
        u = fun m => { m with attachment := a } := by
  have hfind : shapes.find? (·.keyBytes == Bytes.ofString "attachment") =
      some (.of "attachment" (NullableValue (RecordValue Attachment.shapes {}))
        fun v m => { m with attachment := v }) := by
    rfl
  rw [MemberValue, hfind]
  rfl

/-- An attachment is read from its own members, so it may be rearranged like the event. -/
lemma AttachmentRearranged.memberValue {m n : Member} (h : AttachmentRearranged m n)
    {u : Message → Message} (hu : MemberValue shapes m u) : n.1 = m.1 ∧ MemberValue shapes n u := by
  obtain ⟨hms, hns, hrearranged⟩ := h
  refine ⟨rfl, ?_⟩
  obtain ⟨a, ha, rfl⟩ := (memberValue_attachment _ u).mp hu
  refine (memberValue_attachment _ _).mpr ⟨a, ?_, rfl⟩
  have hopen := hms.behind
  cases ha with
  | null =>
    -- null is no object
    obtain ⟨t, ht, -⟩ := hopen
    cases ht
  | some ha =>
    rcases ha with ho | hl
    · obtain ⟨ms, hobject, hmakes⟩ := objectForm_iff.mp ho
      obtain rfl := hms.unique ⟨hobject, hmakes.isValue Attachment.values_shapes⟩
      have hmakes' := hmakes.rearranged Attachment.commutes nofun hrearranged
      exact .some (.inl (objectForm_iff.mpr ⟨_, hns.1, hmakes'⟩))
    · obtain ⟨t, rfl⟩ := listForm_open hl
      obtain ⟨t', ht, -⟩ := hopen
      cases ht

/-- **The order of members, and members that nobody asks for, make no difference, and no line can
forge what the client adds.** A line that opens an object and is decoded holds one list of members.
Any line that holds the same members in another order, in the event or in its attachment, or with
more or fewer members there whose keys are no keys of the wire, is decoded to the same event, but
for the line itself. And for every line, either it is refused for the same reason wherever it was
read, or it says the same everywhere: then topic URL, subscription and line are the given ones, and
no attachment has an uploader. -/
theorem unforged :
    (∀ (line topicUrl subscriptionId : String) (m : Message) (before rest : Bytes),
      Blanks before → Bytes.ofString line = before ++ openBrace :: rest →
      decode line topicUrl subscriptionId = .ok m →
      ∃ ms, (∀ ns, HoldsObject line ns ↔ ns = ms) ∧
        ∀ (ns : List Member) (line' : String), Rearranged shapes AttachmentRearranged ms ns →
          HoldsObject line' ns →
          decode line' topicUrl subscriptionId = .ok { m with raw := line' }) ∧
    ∀ line : String,
      (∃ f, ∀ topicUrl subscriptionId, decode line topicUrl subscriptionId = .error f) ∨
      ∃ x : Message, (∀ a ∈ x.attachment, a.owner = "") ∧
        ∀ topicUrl subscriptionId, decode line topicUrl subscriptionId =
          .ok { x with topicUrl := topicUrl, subscriptionId := subscriptionId, raw := line } := by
  refine ⟨fun line topicUrl subscriptionId m before rest hbefore hline h => ?_, fun line => ?_⟩
  · obtain ⟨ms, x, hms, hx, rfl⟩ := exists_members hbefore hline h
    refine ⟨ms, fun ns => ⟨fun hns => hns.unique hms, fun hns => hns ▸ hms⟩,
      fun ns line' hrearranged hns => ?_⟩
    exact decode_of_members hns
      (hx.rearranged commutes (fun hmn hu => hmn.memberValue hu) hrearranged) _ _
  · cases h : decode line "" "" with
    | error f =>
      refine .inl ⟨f, fun topicUrl subscriptionId => ?_⟩
      cases hread : readLine reader (Bytes.ofString line) with
      | error f' =>
        rw [decode, hread] at h ⊢
        exact h
      | ok x =>
        rw [decode, hread] at h
        cases h
    | ok m =>
      obtain ⟨x, hx, rfl⟩ := decode_eq_ok_iff.mp h
      refine .inr ⟨x, ?_, fun topicUrl subscriptionId => decode_eq_ok_iff.mpr ⟨x, hx, rfl⟩⟩
      obtain ⟨a, v, b, -, -, hv, -⟩ := hx
      exact unowned_of_recordValue hv

/-- The members of an attachment. -/
def fileMembers : List Member :=
  [(Bytes.ofString "name", Bytes.ofString "\"f\""), (Bytes.ofString "url", Bytes.ofString "\"u\"")]

/-- The same in another order, with an uploader. -/
def ownedMembers : List Member :=
  [(Bytes.ofString "owner", Bytes.ofString "\"e\""), (Bytes.ofString "url", Bytes.ofString "\"u\""),
    (Bytes.ofString "name", Bytes.ofString "\"f\"")]

/-- The members of an event with that attachment. -/
def honestMembers : List Member :=
  [(Bytes.ofString "id", Bytes.ofString "\"a\""), (Bytes.ofString "attachment", written fileMembers)]

/-- Members that name what only the client knows. -/
def forgedMembers : List Member :=
  [(Bytes.ofString "attachment", written ownedMembers), (Bytes.ofString "topic_url",
    Bytes.ofString "[null,\x7b\x7d]"), (Bytes.ofString "id", Bytes.ofString "\"a\"")]

def honestLine : String :=
  "\x7b\"id\":\"a\",\"attachment\":\x7b\"name\":\"f\",\"url\":\"u\"\x7d\x7d"

def forgedLine : String :=
  " \x7b\"attachment\":\x7b\"owner\":\"e\",\"url\":\"u\",\"name\":\"f\"\x7d," ++
    "\"topic_url\":[null,\x7b\x7d],\"id\":\"a\"\x7d"

theorem unforged_topic_url :
    decode forgedLine "https://h/t" "0123456789" = .ok
      { id := "a", attachment := some { name := "f", url := "u" }, topicUrl := "https://h/t",
        subscriptionId := "0123456789", raw := forgedLine } := by
  have hfile : IsObject fileMembers (written fileMembers) := isObject_of_skip (by decide +kernel)
  have howned : IsObject ownedMembers (written ownedMembers) := isObject_of_skip (by decide +kernel)
  have hhonest : HoldsObject honestLine honestMembers := ⟨[], _, [], blanks_nil, blanks_nil,
    isObject_of_skip (by decide +kernel), by decide +kernel⟩
  have hspace : Blanks [space] := List.forall_mem_singleton.mpr rfl
  have hforged : HoldsObject forgedLine forgedMembers := ⟨[space], _, [], hspace, blanks_nil,
    isObject_of_skip (by decide +kernel), by decide +kernel⟩
  have hinside : Rearranged Attachment.shapes (fun _ _ => False) fileMembers ownedMembers :=
    .trans (.perm (.swap _ _ [])) (.insert [] _ (by decide +kernel)
      (isValue_of_skip (by decide +kernel) (by decide +kernel)))
  have hrearranged : Rearranged shapes AttachmentRearranged honestMembers forgedMembers :=
    .trans (.within [_] [] (.mk hfile howned hinside)) <| .trans (.perm (.swap _ _ [])) <|
      .insert [_] [_] (by decide +kernel) (isValue_of_skip (by decide +kernel) (by decide +kernel))
  have hdecoded : decode honestLine "https://h/t" "0123456789" = .ok
      { id := "a", attachment := some { name := "f", url := "u" }, topicUrl := "https://h/t",
        subscriptionId := "0123456789", raw := honestLine } := by
    decide +kernel
  obtain ⟨ms, hms, hsame⟩ := unforged.1 honestLine "https://h/t" "0123456789" _ []
    (Bytes.ofString honestLine).tail blanks_nil (by decide +kernel) hdecoded
  obtain rfl := (hms honestMembers).mp hhonest
  exact hsame forgedMembers forgedLine hrearranged hforged

end Message

end TopicFeed
