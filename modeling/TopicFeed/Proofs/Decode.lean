import TopicFeed.Event
import TopicFeed.Proofs.Json.Record
import TopicFeed.Proofs.Json.Typed

/-!
What a line must look like to be decoded.

The fields of events and attachments are put beside the shapes that the wire prescribes for them.
Everything else follows from what record readers read in general.
-/

namespace TopicFeed

open Ascii Json Json.Grammar

/-- A signed integer of 64 bits. -/
def Int64Value (s : Bytes) (x : Int64) : Prop := ∃ i, IntegerValue .int64 s i ∧ x = Int64.ofInt i

/-- A natural of eight bits. -/
def OctetValue (s : Bytes) (x : UInt8) : Prop :=
  ∃ i, IntegerValue .octet s i ∧ x = UInt8.ofNat i.toNat

/-- The fields of an attachment, as the wire writes them. -/
def Attachment.shapes : List (Shape Attachment) := [
  .of "name" TextValue fun v a => { a with name := v },
  .of "type" TextValue fun v a => { a with mimeType := v },
  .of "size" Int64Value fun v a => { a with size := v },
  .of "expires" Int64Value fun v a => { a with expires := v },
  .of "url" TextValue fun v a => { a with url := v }]

/-- The fields of an event, as the wire writes them. -/
def Message.shapes : List (Shape Message) := [
  .of "id" TextValue fun v m => { m with id := v },
  .of "event" TextValue fun v m => { m with event := v },
  .of "time" Int64Value fun v m => { m with time := v },
  .of "expires" Int64Value fun v m => { m with expires := v },
  .of "topic" TextValue fun v m => { m with topic := v },
  .of "message" TextValue fun v m => { m with message := v },
  .of "title" TextValue fun v m => { m with title := v },
  .of "priority" OctetValue fun v m => { m with priority := v },
  .of "tags" (ListValue TextValue) fun v m => { m with tags := v },
  .of "click" TextValue fun v m => { m with click := v },
  .of "icon" TextValue fun v m => { m with icon := v },
  .of "attachment" (NullableValue (RecordValue Attachment.shapes {}))
    fun v m => { m with attachment := v }]

lemma reads_int64 : Reader.int64.Reads Int64Value :=
  (Reader.reads_integer (k := .int64) (by decide) (by decide)).map Int64.ofInt

lemma reads_octet : Reader.octet.Reads OctetValue :=
  (Reader.reads_integer (k := .octet) (by decide) (by decide)).map _

namespace Attachment

lemma described : List.Forall₂ Describes fields shapes := by
  have htext := Reader.reads_text
  have hint := reads_int64
  exact .cons (describes_of htext (by decide) _) <| .cons (describes_of htext (by decide) _) <|
    .cons (describes_of hint (by decide) _) <| .cons (describes_of hint (by decide) _) <|
    .cons (describes_of htext (by decide) _) .nil

lemma reads : (Reader.nullable (.record "Attachment" fields {})).Reads
    (NullableValue (RecordValue shapes {})) := by
  refine (Reader.reads_record described "Attachment" {}).nullable ?_
  intro v x hv
  obtain ⟨b, t, rfl⟩ := recordValue_open hv
  intro hn
  have hopener : opener b = 0x6E := Option.some.inj hn
  cases b with
  | list => exact absurd hopener (by decide)
  | object => exact absurd hopener (by decide)

lemma values_shapes : ∀ f ∈ shapes, Values f.value := by
  have hint : Values Int64Value := (values_integer .int64).map _
  exact values_text.field _ _ <| values_text.field _ _ <| hint.field _ _ <| hint.field _ _ <|
    values_text.field _ _ values_nil

end Attachment

namespace Message

lemma described : List.Forall₂ Describes fields shapes := by
  have htext := Reader.reads_text
  have hint := reads_int64
  exact .cons (describes_of htext (by decide) _) <| .cons (describes_of htext (by decide) _) <|
    .cons (describes_of hint (by decide) _) <| .cons (describes_of hint (by decide) _) <|
    .cons (describes_of htext (by decide) _) <| .cons (describes_of htext (by decide) _) <|
    .cons (describes_of htext (by decide) _) <| .cons (describes_of reads_octet (by decide) _) <|
    .cons (describes_of htext.list (by decide) _) <| .cons (describes_of htext (by decide) _) <|
    .cons (describes_of htext (by decide) _) <|
    .cons (describes_of Attachment.reads (by decide) _) .nil

theorem reads : reader.Reads (RecordValue shapes {}) :=
  Reader.reads_record described "Message" {}

lemma values_shapes : ∀ f ∈ shapes, Values f.value := by
  have hint : Values Int64Value := (values_integer .int64).map _
  have hoctet : Values OctetValue := (values_integer .octet).map _
  have hattachment : Values (NullableValue (RecordValue Attachment.shapes {})) :=
    (values_record Attachment.values_shapes).nullable
  exact values_text.field _ _ <| values_text.field _ _ <| hint.field _ _ <| hint.field _ _ <|
    values_text.field _ _ <| values_text.field _ _ <| values_text.field _ _ <|
    hoctet.field _ _ <| values_text.list.field _ _ <| values_text.field _ _ <|
    values_text.field _ _ <| hattachment.field _ _ values_nil

/-- The line holds one value of the given kind, with nothing but blanks around it. -/
def Holds (V : Bytes → Message → Prop) (line : String) (m : Message) : Prop :=
  ∃ a v b, Blanks a ∧ Blanks b ∧ V v m ∧ Bytes.ofString line = a ++ v ++ b

/-- The event with what only the client knows. -/
def stamped (line topicUrl subscriptionId : String) (m : Message) : Message :=
  { m with topicUrl := topicUrl, subscriptionId := subscriptionId, raw := line }

/-- The event for another subscription. -/
def addressed (subscriptionId : String) (m : Message) : Message :=
  { m with subscriptionId := subscriptionId }

/-- A line is decoded to the record that it holds. -/
theorem decode_eq_ok_iff {line topicUrl subscriptionId : String} {m : Message} :
    decode line topicUrl subscriptionId = .ok m ↔
      ∃ x, Holds (RecordValue shapes {}) line x ∧ m = stamped line topicUrl subscriptionId x := by
  have hwhole := fun x => readWhole_eq_ok_iff (s := Bytes.ofString line) (x := x) reads
  unfold decode readLine
  constructor
  · intro h
    split at h
    · next x hx =>
      cases h
      exact ⟨x, (hwhole x).mp hx, rfl⟩
    · cases h
  · rintro ⟨x, hx, rfl⟩
    rw [(hwhole x).mpr hx]
    rfl

/-- An event as an object. -/
def IsEvent (o : Bytes) (x : Message) : Prop := IsValue o ∧ ObjectForm shapes {} o x

/-- **A line that opens an object is decoded exactly if it holds an event**: one JSON object, with
no key of an event twice, and with a value of the right type behind each of these keys. Behind any
other key stands any value. -/
theorem decodes_object_iff (line topicUrl subscriptionId : String) {before rest : Bytes}
    (hbefore : Blanks before) (hline : Bytes.ofString line = before ++ openBrace :: rest) :
    (∃ m, decode line topicUrl subscriptionId = .ok m) ↔
      ∃ x, Holds IsEvent line x := by
  have hfirst : skipBlanks (Bytes.ofString line) = openBrace :: rest := by
    rw [hline, skipBlanks_upTo hbefore rfl]
  constructor
  · rintro ⟨m, hm⟩
    obtain ⟨x, ⟨a, v, b, ha, hb, hv, hsplit⟩, -⟩ := decode_eq_ok_iff.mp hm
    refine ⟨x, a, v, b, ha, hb, ?_, hsplit⟩
    rcases hv with ho | hl
    · exact ⟨ho.isValue values_shapes, ho⟩
    · -- A list would begin with another bracket.
      obtain ⟨t, rfl⟩ := listForm_open hl
      rw [hsplit, List.append_assoc, skipBlanks_append ha] at hfirst
      cases hfirst
  · rintro ⟨x, a, o, b, ha, hb, ⟨-, ho⟩, hsplit⟩
    exact ⟨_, decode_eq_ok_iff.mpr ⟨x, ⟨a, o, b, ha, hb, .inl ho, hsplit⟩, rfl⟩⟩

/-- A line with an unknown key, behind which an escape stands that no text could hold. -/
def oddLine : String := "\x7b\"id\":\"a\",\"more\":[\x7b\"k\":\"\\uD800\"\x7d,-0.5e+1]\x7d"

/-- The unknown value of the line is no text that could be kept, and it is skipped. -/
theorem decodes_object_odd : ∃ x, Holds IsEvent oddLine x := by
  have hline : Bytes.ofString oddLine = [] ++ openBrace :: (Bytes.ofString oddLine).tail := by
    decide +kernel
  have hdecoded : decode oddLine "" "" = .ok { id := "a", raw := oddLine } := by decide +kernel
  exact (decodes_object_iff oddLine "" "" blanks_nil hline).mp ⟨_, hdecoded⟩

end Message

end TopicFeed
