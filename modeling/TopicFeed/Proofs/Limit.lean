import TopicFeed.Proofs.Chunks
import TopicFeed.Proofs.Cut
import TopicFeed.Proofs.Truncation

/-!
The limit on the answer to a publish.

An answer is cut off behind so many bytes, then read leniently, and only then decoded. The cut never
turns one event into another. If the value of the answer fits, only blanks are lost, and the cut
falls inside no character. If it does not fit, a part of the answer is left, perhaps with one U+FFFD
behind it, and neither is an event.
-/

namespace TopicFeed

open Network Json Json.Grammar Utf8

namespace Json.Grammar

/-- No blank is beyond ASCII. -/
lemma isBlank_of_le {b : UInt8} (h : 0x80 ≤ b.toNat) : isBlank b = false := by
  by_contra hblank
  simp only [isBlank, Bool.not_eq_false, Bool.or_eq_true, beq_iff_eq] at hblank
  rcases hblank with ((rfl | rfl) | rfl) | rfl <;> exact absurd h (by decide)

lemma blanks_spaces (count : Nat) : Blanks (List.replicate count Ascii.space) := by
  intro b hb
  rw [List.eq_of_mem_replicate hb]
  rfl

end Json.Grammar

namespace Message

variable {text topicUrl subscriptionId : String} {x m : Message} {n room : Nat}

/-- A line that holds a record ends with a blank or with a closing bracket. -/
lemma Holds.last (h : Holds (RecordValue shapes {}) text x) {r : Bytes} {b : UInt8}
    (htext : Bytes.ofString text = r ++ [b]) : isBlank b = true ∨ ∃ c : Bracket, b = c.close := by
  obtain ⟨a, v, w, -, hw, hv, hsplit⟩ := h
  obtain ⟨u, c, rfl⟩ := recordValue_close hv
  rw [htext] at hsplit
  rcases w.eq_nil_or_concat' with rfl | ⟨w, d, rfl⟩
  · rw [List.append_nil, ← List.append_assoc] at hsplit
    exact .inr ⟨c, List.append_singleton_inj.mp hsplit |>.2⟩
  · rw [← List.append_assoc] at hsplit
    obtain rfl := (List.append_singleton_inj.mp hsplit).2
    exact .inl (hw b (by simp))

/-- A line that ends with U+FFFD holds no record. -/
lemma not_holds_replaced (cs : List Char) :
    ¬Holds (RecordValue shapes {}) (String.ofList (cs ++ ['\uFFFD'])) x := by
  intro h
  have hend : Bytes.ofString (String.ofList (cs ++ ['\uFFFD'])) =
      (encode cs ++ [0xEF, 0xBF]) ++ [0xBD] := by
    rw [ofString_ofList, encode, List.flatMap_append, List.append_assoc]
    rfl
  rcases h.last hend with hblank | ⟨c, hc⟩
  · revert hblank
    decide
  · cases c <;> cases hc

/-- If the value fits, then what is read of the text is the same event. -/
lemma decode_fits (h : decode text topicUrl subscriptionId = .ok m)
    (hn : ValueEnds (Bytes.ofString text) n) (hle : n ≤ room) :
    ∃ raw, Bytes.ofString raw = (Bytes.ofString text).take room ∧
      decode (lenient ((Bytes.ofString text).take room)) topicUrl subscriptionId =
        .ok { m with raw } := by
  obtain ⟨x, hx, rfl⟩ := decode_eq_ok_iff.mp h
  rcases lenient_take text room with hwhole | ⟨ds, b, -, hbehind, hascii⟩
  · have hpart : Holds (RecordValue shapes {}) (lenient ((Bytes.ofString text).take room)) x := by
      refine hx.cut hn ?_ ?_
      · rw [hwhole]
        exact List.take_prefix room _
      · rw [hwhole, List.length_take]
        exact Nat.le_min.mpr ⟨hle, hn.le_length⟩
    exact ⟨_, hwhole, decode_eq_ok_iff.mpr ⟨x, hpart, rfl⟩⟩
  · -- the cut falls inside a character, so inside the value
    have hmem : b ∈ (Bytes.ofString text).drop room := by
      rw [← List.head?_drop] at hbehind
      exact List.mem_of_head? hbehind
    exact absurd (hn.lt_of_mem_drop hmem (isBlank_of_le hascii)) (Nat.not_lt.mpr hle)

/-- If the value does not fit, then what is read of the text is refused. -/
lemma refused_of_lt (h : decode text topicUrl subscriptionId = .ok m)
    (hn : ValueEnds (Bytes.ofString text) n) (hlt : room < n) (url id : String) :
    ∃ f, decode (lenient ((Bytes.ofString text).take room)) url id = .error f := by
  obtain ⟨x, hx, rfl⟩ := decode_eq_ok_iff.mp h
  rw [refused_iff]
  rintro ⟨y, hy⟩
  rcases lenient_take text room with hwhole | ⟨ds, b, hread, -, -⟩
  · have hreach := hx.reaches hn (by rw [hwhole]; exact List.take_prefix room _) hy
    rw [hwhole, List.length_take] at hreach
    omega
  · rw [hread] at hy
    exact not_holds_replaced ds hy

/-- A text with so many spaces before and behind it. -/
def padded (before behind : Nat) (text : String) : String :=
  String.ofList (List.replicate before ' ' ++ text.toList ++ List.replicate behind ' ')

lemma ofString_padded (before behind : Nat) (text : String) :
    Bytes.ofString (padded before behind text) =
      List.replicate before Ascii.space ++ Bytes.ofString text ++
        List.replicate behind Ascii.space := by
  have hspaces : ∀ count, encode (List.replicate count ' ') = List.replicate count Ascii.space := by
    intro count
    have hspace : String.utf8EncodeChar ' ' = [Ascii.space] := rfl
    rw [encode, List.flatMap_replicate, hspace, List.flatten_replicate_singleton]
  rw [padded, ofString_ofList, encode, List.flatMap_append, List.flatMap_append, ← encode,
    ← encode, ← encode, hspaces, hspaces, ← ofString_eq]

/-- Spaces around an event make no difference. -/
lemma decode_padded (h : decode text topicUrl subscriptionId = .ok m) (before behind : Nat) :
    decode (padded before behind text) topicUrl subscriptionId =
      .ok { m with raw := padded before behind text } := by
  obtain ⟨x, ⟨a, v, b, ha, hb, hv, htext⟩, rfl⟩ := decode_eq_ok_iff.mp h
  refine decode_eq_ok_iff.mpr ⟨x, ⟨_, v, _, blanks_append (blanks_spaces before) ha,
    blanks_append hb (blanks_spaces behind), hv, ?_⟩, rfl⟩
  rw [ofString_padded, htext]
  simp

end Message

namespace Client

variable {c : Client} {topic url text : String} {body : Bytes} {options : List RequestOption}
variable {status : Nat} {answer : Body}

/-- What comes of publishing if the answer is a success and can be read. -/
lemma publish_of_success (hurl : c.resolve topic = .ok url)
    (hrequest : (c.hub.network.request .post url options body).2 = .ok (status, answer))
    (hstatus : isSuccess status = true)
    (hread : maxAnswer ≤ answer.bytes.length ∨ answer.ending = .closed) :
    (c.publish topic body options).2 = .returned
      ((Message.decode (lenient (answer.bytes.take maxAnswer)) url "").mapError .decode) := by
  have hcapped : answer.capped maxAnswer = .read (answer.bytes.take maxAnswer) := by
    rw [answer.capped_eq]
    exact cappedBytes_eq_read_iff.mpr ⟨rfl, hread⟩
  rw [publish, hurl]
  simp only [Network.publish]
  generalize c.hub.network.request .post url options body = x at hrequest ⊢
  obtain ⟨net, reply⟩ := x
  simp only at hrequest
  subst hrequest
  simp [hcapped, hstatus]

/-- **The limit never turns one event into another.** A server answers a publish with success, and
with a text that is an event. The value of the text ends in one place. If that is within the limit,
the event is returned, with as much of the text as was read; otherwise the answer is refused, also
where the limit falls inside a character. -/
theorem publish_up_to_limit {m : Message} (hurl : c.resolve topic = .ok url)
    (hrequest : (c.hub.network.request .post url options body).2 = .ok (status, answer))
    (hstatus : isSuccess status = true)
    (hread : maxAnswer ≤ answer.bytes.length ∨ answer.ending = .closed)
    (htext : answer.bytes = Bytes.ofString text) (hm : Message.decode text url "" = .ok m) :
    ∃ n, (∀ k, ValueEnds answer.bytes k ↔ k = n) ∧
      (n ≤ maxAnswer → ∃ raw, Bytes.ofString raw = answer.bytes.take maxAnswer ∧
        (c.publish topic body options).2 = .returned (.ok { m with raw })) ∧
      (maxAnswer < n → ∃ f, (c.publish topic body options).2 = .returned (.error (.decode f))) := by
  rw [publish_of_success hurl hrequest hstatus hread, htext]
  obtain ⟨x, hx, -⟩ := Message.decode_eq_ok_iff.mp hm
  obtain ⟨n, hn, -⟩ := hx.ends
  refine ⟨n, fun k => ⟨fun hk => hk.unique hn, fun hk => hk ▸ hn⟩, fun hle => ?_, fun hlt => ?_⟩
  · obtain ⟨raw, hraw, hdecode⟩ := Message.decode_fits hm hn hle
    exact ⟨raw, hraw, by rw [hdecode]; rfl⟩
  · obtain ⟨f, hf⟩ := Message.refused_of_lt hm hn hlt url ""
    exact ⟨f, by rw [hf]; rfl⟩

/-- An event with a character of two bytes. -/
def accented : String := "\x7b\"message\":\"é\"\x7d"

def acuteMessage : Message := { message := "é", topicUrl := "https://h/t", raw := accented }

/-- An answer to a publish that is the event among spaces. -/
def accentedHost (before behind : Nat) : Network :=
  hostOf { chunks := [Bytes.ofString (Message.padded before behind accented)] }

theorem publish_up_to_limit_inside_character :
    (∃ f, ((new {} (accentedHost 4083 0)).publish "https://h/t" [] []).2 =
      .returned (.error (.decode f))) ∧
    ∃ raw, ((new {} (accentedHost 0 5000)).publish "https://h/t" [] []).2 =
      .returned (.ok { acuteMessage with raw }) := by
  have hdecode : Message.decode accented "https://h/t" "" = .ok acuteMessage := by decide +kernel
  have hurl : ∀ net, (new {} net).resolve "https://h/t" = .ok "https://h/t" := fun _ => rfl
  have hanswer : ∀ b : Body,
      ((new {} (hostOf b)).hub.network.request .post "https://h/t" [] []).2 = .ok (200, b) :=
    fun _ => rfl
  have hbytes : ∀ s, (Body.mk [Bytes.ofString s] .closed).bytes = Bytes.ofString s :=
    fun s => List.append_nil _
  constructor
  · obtain ⟨n, hn, -, hrefused⟩ := publish_up_to_limit (hurl _) (hanswer _) rfl (.inr rfl)
      (hbytes _) (Message.decode_padded hdecode 4083 0)
    have hquote : Ascii.quote ∈
        (Bytes.ofString (Message.padded 4083 0 accented)).drop maxAnswer := by
      rw [Message.ofString_padded, List.append_assoc, List.drop_append, List.length_replicate]
      exact List.mem_append_right _ (by decide +kernel)
    rw [← hbytes] at hquote
    exact hrefused (((hn n).mpr rfl).lt_of_mem_drop hquote rfl)
  · obtain ⟨n, hn, hsame, -⟩ := publish_up_to_limit (hurl _) (hanswer _) rfl (.inr rfl)
      (hbytes _) (Message.decode_padded hdecode 0 5000)
    obtain ⟨x, hx, -⟩ := Message.decode_eq_ok_iff.mp hdecode
    obtain ⟨k, hk, -⟩ := hx.ends
    have hend := hk.append (blanks_spaces 5000)
    have hpadded : Bytes.ofString accented ++ List.replicate 5000 Ascii.space =
        Bytes.ofString (Message.padded 0 5000 accented) := by
      rw [Message.ofString_padded]
      rfl
    rw [hpadded, ← hbytes] at hend
    obtain rfl := (hn k).mp hend
    have hshort : (Bytes.ofString accented).length ≤ maxAnswer := by decide +kernel
    obtain ⟨raw, -, hraw⟩ := hsame (Nat.le_trans hk.le_length hshort)
    exact ⟨raw, hraw⟩

end Client

end TopicFeed
