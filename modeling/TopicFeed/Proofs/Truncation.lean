import TopicFeed.Proofs.Decode

/-!
Lines that are cut off.

A record is read to its closing bracket, whatever stands behind it. So a line that is decoded and
goes on with something else goes on with blanks only, and a line that is cut off before the closing
bracket of its value is no line that can be decoded.
-/

namespace TopicFeed

open Json Json.Grammar

namespace Json.Grammar

/-- The text is a value with nothing but blanks around it, and the value ends at the given place. -/
def ValueEnds (s : Bytes) (n : Nat) : Prop :=
  ∃ a v b, Blanks a ∧ IsValue v ∧ Blanks b ∧ s = a ++ v ++ b ∧ (a ++ v).length = n

lemma stops_of_blanks {b : Bytes} (hb : Blanks b) : Stops b := by
  simpa using stops_append hb (s := []) trivial

/-- The value of a text ends in one place only. -/
lemma ValueEnds.unique {s : Bytes} {n k : Nat} (hn : ValueEnds s n) (hk : ValueEnds s k) :
    n = k := by
  obtain ⟨a, v, b, ha, hv, hb, rfl, rfl⟩ := hn
  obtain ⟨a', v', b', ha', hv', hb', hs, rfl⟩ := hk
  have hskip := skip_complete ha hv (stops_of_blanks hb)
  rw [hs, skip_complete ha' hv' (stops_of_blanks hb')] at hskip
  cases hskip
  rw [List.append_cancel_right hs]

/-- Blanks behind a text do not move the end of its value. -/
lemma ValueEnds.append {s b : Bytes} {n : Nat} (h : ValueEnds s n) (hb : Blanks b) :
    ValueEnds (s ++ b) n := by
  obtain ⟨a, v, c, ha, hv, hc, rfl, rfl⟩ := h
  exact ⟨a, v, c ++ b, ha, hv, blanks_append hc hb, List.append_assoc _ c b, rfl⟩

lemma ValueEnds.le_length {s : Bytes} {n : Nat} (h : ValueEnds s n) : n ≤ s.length := by
  obtain ⟨a, v, b, -, -, -, rfl, rfl⟩ := h
  exact (List.prefix_append (a ++ v) b).length_le

/-- Behind the value stand blanks, so the value ends behind every byte that is none. -/
lemma ValueEnds.lt_of_mem_drop {s : Bytes} {n k : Nat} (h : ValueEnds s n) {b : UInt8}
    (hmem : b ∈ s.drop k) (hb : isBlank b = false) : k < n := by
  by_contra hle
  have hbehind : b ∈ s.drop n := List.drop_subset_drop_left s (Nat.not_lt.mp hle) hmem
  obtain ⟨a, v, c, -, -, hc, rfl, rfl⟩ := h
  rw [List.drop_left] at hbehind
  rw [hc b hbehind] at hb
  cases hb

end Json.Grammar

namespace Message

variable {line part : String} {x y : Message} {n : Nat}

/-- A line that holds a record has a value, which ends with a closing bracket. -/
lemma Holds.ends (h : Holds (RecordValue shapes {}) line x) :
    ∃ n, ValueEnds (Bytes.ofString line) n ∧
      ∃ b : Bracket, (Bytes.ofString line)[n - 1]? = some b.close := by
  obtain ⟨a, v, w, ha, hw, hv, hline⟩ := h
  refine ⟨(a ++ v).length, ⟨a, v, w, ha, values_record values_shapes v x hv, hw, hline, rfl⟩, ?_⟩
  obtain ⟨u, b, rfl⟩ := recordValue_close hv
  refine ⟨b, ?_⟩
  have hplace : (a ++ (u ++ [b.close])).length - 1 = (a ++ u).length := by
    simp only [List.length_append, List.length_singleton]
    omega
  have hsplit : a ++ (u ++ [b.close]) ++ w = a ++ u ++ b.close :: w := by simp
  rw [hline, hplace, hsplit, List.getElem?_append_right (Nat.le_refl _), Nat.sub_self]
  rfl

/-- If a line that holds a record goes on as another one, it goes on with blanks. -/
lemma Holds.blanks_of_append {rest : Bytes} (hpart : Holds (RecordValue shapes {}) part x)
    (hline : Holds (RecordValue shapes {}) line y)
    (hsplit : Bytes.ofString line = Bytes.ofString part ++ rest) : Blanks rest := by
  obtain ⟨a, v, b, ha, -, hv, hpart⟩ := hpart
  obtain ⟨a', v', b', ha', hb', hv', hline⟩ := hline
  -- both records are read off the longer line
  have hread := readRecord_complete described "Message" ha' hv' b'
  rw [← hline, hsplit, hpart, List.append_assoc,
    readRecord_complete described "Message" ha hv (b ++ rest)] at hread
  cases hread
  exact fun c hc => hb' c (List.mem_append_right b hc)

/-- A part of a line that holds a record reaches to the end of the value, if it holds one, too. -/
lemma Holds.reaches (hline : Holds (RecordValue shapes {}) line x)
    (hn : ValueEnds (Bytes.ofString line) n)
    (hbegins : Bytes.ofString part <+: Bytes.ofString line)
    (hpart : Holds (RecordValue shapes {}) part y) : n ≤ (Bytes.ofString part).length := by
  obtain ⟨rest, hrest⟩ := hbegins
  obtain ⟨k, hk, -⟩ := hpart.ends
  have hends := hk.append (hpart.blanks_of_append hline hrest.symm)
  rw [hrest] at hends
  rw [hn.unique hends]
  exact hk.le_length

/-- A part of a line that reaches to the end of the value holds the same record. -/
lemma Holds.cut (hline : Holds (RecordValue shapes {}) line x)
    (hn : ValueEnds (Bytes.ofString line) n)
    (hbegins : Bytes.ofString part <+: Bytes.ofString line)
    (hle : n ≤ (Bytes.ofString part).length) : Holds (RecordValue shapes {}) part x := by
  obtain ⟨a, v, b, ha, hb, hv, hsplit⟩ := hline
  have hend : ValueEnds (Bytes.ofString line) (a ++ v).length :=
    ⟨a, v, b, ha, values_record values_shapes v x hv, hb, hsplit, rfl⟩
  obtain rfl := hn.unique hend
  refine ⟨a, v, b.take ((Bytes.ofString part).length - (a ++ v).length), ha, ?_, hv, ?_⟩
  · exact fun c hc => hb c (List.mem_of_mem_take hc)
  · calc Bytes.ofString part
        = (Bytes.ofString line).take (Bytes.ofString part).length :=
          List.prefix_iff_eq_take.mp hbegins
      _ = a ++ v ++ b.take ((Bytes.ofString part).length - (a ++ v).length) := by
          rw [hsplit, List.take_append, List.take_of_length_le hle]

/-- A line that is not decoded is refused. -/
lemma refused_iff {topicUrl subscriptionId : String} :
    (∃ f, decode line topicUrl subscriptionId = .error f) ↔
      ¬∃ x, Holds (RecordValue shapes {}) line x := by
  rcases hd : decode line topicUrl subscriptionId with f | m
  · refine ⟨fun _ => ?_, fun _ => ⟨f, rfl⟩⟩
    rintro ⟨x, hx⟩
    rw [decode_eq_ok_iff.mpr ⟨x, hx, rfl⟩] at hd
    cases hd
  · obtain ⟨x, hx, -⟩ := decode_eq_ok_iff.mp hd
    exact ⟨nofun, fun h => absurd ⟨x, hx⟩ h⟩

/-- **A line that is cut off is never taken for an event.** The value of a line that is decoded ends
at one place, with a closing bracket. A part of the line is refused exactly if it ends before that
place, wherever the cut falls, and whatever topic and subscription it is decoded for. -/
theorem truncated_refused {topicUrl subscriptionId : String} {m : Message}
    (h : decode line topicUrl subscriptionId = .ok m) :
    ∃ n, (∀ k, ValueEnds (Bytes.ofString line) k ↔ k = n) ∧
      (∃ b : Bracket, (Bytes.ofString line)[n - 1]? = some b.close) ∧
      ∀ part, Bytes.ofString part <+: Bytes.ofString line → ∀ url id,
        (Bytes.ofString part).length < n ↔ ∃ f, decode part url id = .error f := by
  obtain ⟨x, hx, -⟩ := decode_eq_ok_iff.mp h
  obtain ⟨n, hn, hclose⟩ := hx.ends
  refine ⟨n, fun k => ⟨fun hk => hk.unique hn, fun hk => hk ▸ hn⟩, hclose, ?_⟩
  intro part hbegins url id
  rw [refused_iff]
  constructor
  · rintro hlt ⟨y, hy⟩
    exact absurd (hx.reaches hn hbegins hy) (Nat.not_le.mpr hlt)
  · intro hnone
    by_contra hge
    exact hnone ⟨x, hx.cut hn hbegins (Nat.not_lt.mp hge)⟩

/-- An event with a value that nobody asked for, and a blank behind it. -/
def nestedLine : String := "\x7b\"message\":\"\\u00e9\",\"more\":[\x7b\"k\":\"\x7d\"\x7d]\x7d "

/-- The line up to a brace in a text that closes nothing. -/
def nestedPart : String := "\x7b\"message\":\"\\u00e9\",\"more\":[\x7b\"k\":\"\x7d"

theorem truncated_refused_behind_brace :
    (∃ m, decode nestedLine "" "" = .ok m) ∧
    ∃ f, decode nestedPart "https://h/t" "s" = .error f := by
  have hline : decode nestedLine "" "" = .ok { message := "é", raw := nestedLine } := by
    decide +kernel
  obtain ⟨n, hn, -, hparts⟩ := truncated_refused hline
  have hbegins : Bytes.ofString nestedPart <+: Bytes.ofString nestedLine := by decide +kernel
  have hquote : Ascii.quote ∈
      (Bytes.ofString nestedLine).drop (Bytes.ofString nestedPart).length := by decide +kernel
  have hlt := ((hn n).mpr rfl).lt_of_mem_drop hquote rfl
  exact ⟨⟨_, hline⟩, (hparts nestedPart hbegins _ _).mp hlt⟩

end Message

end TopicFeed
