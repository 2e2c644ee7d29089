import TopicFeed.Event
import TopicFeed.Proofs.Json.Lookahead

/-!
What the fault of a line depends on.

The place of a fault denotes a byte of its line: the start of the place's line in it, and the column
behind that. Since no reader looks ahead, the fault is settled by the bytes before this one and the
byte itself. Every other line that begins with them is refused in the same words, at the same place.
-/

namespace TopicFeed

namespace Json

open Ascii Reached

/-! ### Places -/

/-- Where a line of a text starts, lines counted from zero. -/
def lineStart : Nat → Bytes → Nat
  | 0, _ => 0
  | _ + 1, [] => 0
  | n + 1, c :: s => lineStart (if c = lineFeed then n else n + 1) s + 1

/-- The number of bytes of a text before a place. -/
def Place.index (p : Place) (text : Bytes) : Nat := lineStart (p.line - 1) text + p.column

lemma lineStart_behind (before rest : Bytes) :
    lineStart (before.count lineFeed + 1) (before ++ lineFeed :: rest) = before.length + 1 := by
  induction before with
  | nil => simp [lineStart]
  | cons c before ih =>
    by_cases hc : c = lineFeed
    · subst hc
      rw [List.count_cons_self, List.cons_append, lineStart, if_pos rfl, ih, List.length_cons]
    · rw [List.count_cons_of_ne hc, List.cons_append, lineStart, if_neg hc, ih, List.length_cons]

/-- A text up to its last line feed, if it has one. -/
lemma eq_behind_lineFeed {s : Bytes} (h : lineFeed ∈ s) :
    ∃ before column, s = before ++ lineFeed :: column ∧ lineFeed ∉ column := by
  obtain ⟨column, before, hs, hcolumn⟩ :=
    List.eq_append_cons_of_mem (List.mem_reverse.mpr h)
  refine ⟨before.reverse, column.reverse, ?_, by simpa using hcolumn⟩
  rw [← s.reverse_reverse, hs]
  simp

/-- The bytes of the last line of a text. -/
lemma column_eq {column : Bytes} (h : lineFeed ∉ column) :
    column.reverse.takeWhile (· != lineFeed) = column.reverse := by
  refine List.takeWhile_eq_self_iff.mpr fun b hb => ?_
  rw [bne_iff_ne]
  rintro rfl
  exact h (List.mem_reverse.mp hb)

/-- The place behind some bytes is the place before the byte that follows them. -/
lemma index_after (s rest : Bytes) : (Place.after s).index (s ++ rest) = s.length := by
  show lineStart (1 + s.count lineFeed - 1) (s ++ rest)
    + (s.reverse.takeWhile (· != lineFeed)).length = s.length
  rw [Nat.add_sub_cancel_left]
  by_cases hs : lineFeed ∈ s
  · obtain ⟨before, column, rfl, hcolumn⟩ := eq_behind_lineFeed hs
    have hcount : (before ++ lineFeed :: column).count lineFeed = before.count lineFeed + 1 := by
      rw [List.count_append, List.count_cons_self, List.count_eq_zero_of_not_mem hcolumn]
    have hlast : (before ++ lineFeed :: column).reverse.takeWhile (· != lineFeed) =
        column.reverse := by
      rw [List.reverse_append, List.reverse_cons, List.append_assoc,
        List.takeWhile_append_of_pos (List.takeWhile_eq_self_iff.mp (column_eq hcolumn))]
      simp
    rw [hcount, hlast, List.append_assoc, List.cons_append, lineStart_behind]
    simp only [List.length_append, List.length_cons, List.length_reverse]
    omega
  · rw [List.count_eq_zero_of_not_mem hs, column_eq hs, lineStart, List.length_reverse,
      Nat.zero_add]

/-- The number of bytes before a fault. -/
lemma index_place (f : Fault) (line : Bytes) :
    (f.place line).index line = line.length - f.behind := by
  have hindex := index_after (line.take (line.length - f.behind))
    (line.drop (line.length - f.behind))
  rw [List.take_append_drop, List.length_take_of_le (Nat.sub_le _ _)] at hindex
  exact hindex

/-! ### Lines -/

/-- The end of a text, behind the blanks. -/
def textEnd (s : Bytes) : Except Fault Bytes :=
  match skipBlanks s with
  | [] => .ok []
  | c :: t => .error (.ahead .trailingCharacters (c :: t))

lemma prompt_textEnd (s : Bytes) : Prompt textEnd s :=
  .atToken (fun s => by simp only [textEnd, skipBlanks_idem]) rfl fun c t hc _ =>
    prompt_ahead .trailingCharacters (fun t => by simp only [textEnd, skipBlanks_cons hc]) t

section Whole

variable {α : Type} {value : Reader α}

/-- A value with the end of the text behind it. -/
def valueToEnd (value : Reader α) (s : Bytes) : Except Fault (α × Bytes) :=
  (value.read s).bind fun (a, r) => (textEnd r).map fun r => (a, r)

lemma prompt_valueToEnd (h : value.IsPrompt) (s : Bytes) : Prompt (valueToEnd value) s :=
  (h s).andThen fun a r _ => (prompt_textEnd r).map fun r => prompt_with a r

lemma readWhole_eq (value : Reader α) (s : Bytes) :
    readWhole value s = (valueToEnd value s).map Prod.fst := by
  rw [readWhole, valueToEnd]
  rcases value.read s with f | ⟨a, r⟩
  · rfl
  · dsimp only [Except.bind, textEnd]
    rcases skipBlanks r with _ | ⟨c, t⟩ <;> rfl

lemma readLine_eq_error_iff {line : Bytes} {f : LineFault} :
    readLine value line = .error f ↔
      ∃ g, valueToEnd value line = .error g ∧ f = ⟨g.cause, g.place line⟩ := by
  rw [readLine, readWhole_eq]
  rcases valueToEnd value line with g | x
  · simp [Except.map, eq_comm]
  · simp [Except.map]

/-- A fault of a line does not depend on what stands behind the byte at its place. -/
theorem readLine_of_take (h : value.IsPrompt) {line : Bytes} {f : LineFault}
    (hline : readLine value line = .error f) (hinside : f.place.index line < line.length)
    {other : Bytes}
    (hsame : other.take (f.place.index line + 1) = line.take (f.place.index line + 1)) :
    readLine value other = .error f := by
  obtain ⟨g, hg, rfl⟩ := readLine_eq_error_iff.mp hline
  have hprompt := prompt_valueToEnd h line
  have hbehind : g.behind ≤ line.length := by simpa [hg, left] using hprompt.left_le
  simp only [index_place] at hinside hsame
  generalize hi : line.length - g.behind = i at hinside hsame
  -- both lines are the bytes up to the place with their own ends behind them
  have hfork : Forks (line.drop (i + 1)) (other.drop (i + 1)) line other :=
    ⟨line.take (i + 1), (List.take_append_drop _ _).symm,
      by rw [← hsame, List.take_append_drop]⟩
  have hforks := hprompt.forks _ _ other hfork (by
    simp only [hg, left, List.length_drop]
    omega)
  rw [hg] at hforks
  rcases hother : valueToEnd value other with g' | x
  · rw [hother] at hforks
    obtain ⟨hcause, hlengths⟩ := hforks
    refine readLine_eq_error_iff.mpr ⟨g', hother, ?_⟩
    have hlength := congrArg List.length hsame
    simp only [List.length_drop, List.length_take] at hlengths hlength
    have hplace : other.length - g'.behind = i := by omega
    have hbefore : other.take i = line.take i := by
      have htake := congrArg (List.take i) hsame
      simpa [List.take_take] using htake
    rw [hcause, Fault.place, Fault.place, hplace, hi, hbefore]
  · rw [hother] at hforks
    exact hforks.elim

end Whole

end Json

open Json Json.Reader

lemma Attachment.promptFields : PromptFields fields :=
  isPrompt_text.field _ _ <| isPrompt_text.field _ _ <| isPrompt_int64.field _ _ <|
    isPrompt_int64.field _ _ <| isPrompt_text.field _ _ promptFields_nil

namespace Message

lemma promptFields : PromptFields fields :=
  isPrompt_text.field _ _ <| isPrompt_text.field _ _ <| isPrompt_int64.field _ _ <|
    isPrompt_int64.field _ _ <| isPrompt_text.field _ _ <| isPrompt_text.field _ _ <|
    isPrompt_text.field _ _ <| isPrompt_octet.field _ _ <| isPrompt_text.list.field _ _ <|
    isPrompt_text.field _ _ <| isPrompt_text.field _ _ <|
    (isPrompt_record "Attachment" Attachment.promptFields {}).nullable.field _ _ promptFields_nil

lemma isPrompt_reader : reader.IsPrompt := isPrompt_record "Message" promptFields {}

lemma decode_eq_error_iff {line topicUrl subscriptionId : String} {f : LineFault} :
    decode line topicUrl subscriptionId = .error f ↔
      readLine reader (Bytes.ofString line) = .error f := by
  rw [decode]
  rcases readLine reader (Bytes.ofString line) with g | m <;> simp [Except.map]

/-- **The fault of a line is settled by the line up to its place.** The place denotes a byte of the
line or its end; and if it is a byte of the line, every line that is the same up to and with this
byte is refused with the same fault, whatever follows, and whatever the line was read for. -/
theorem fault_local {line topicUrl subscriptionId : String} {f : LineFault}
    (h : decode line topicUrl subscriptionId = .error f) :
    let bytes := Bytes.ofString line
    let i := f.place.index bytes
    i ≤ bytes.length ∧ f.place = Place.after (bytes.take i) ∧
      (i < bytes.length → ∀ other otherUrl otherId : String,
        (Bytes.ofString other).take (i + 1) = bytes.take (i + 1) →
          decode other otherUrl otherId = .error f) := by
  intro bytes i
  have hline := decode_eq_error_iff.mp h
  have hplace : i ≤ bytes.length ∧ f.place = Place.after (bytes.take i) := by
    obtain ⟨g, -, rfl⟩ := readLine_eq_error_iff.mp hline
    have hi : i = bytes.length - g.behind := index_place g bytes
    rw [hi]
    exact ⟨Nat.sub_le _ _, rfl⟩
  refine ⟨hplace.1, hplace.2, fun hinside other otherUrl otherId hsame => ?_⟩
  exact decode_eq_error_iff.mpr (readLine_of_take isPrompt_reader hline hinside hsame)

/-- A number for a text, on the second line: the line is refused behind the number, so the byte
that ends the number is the last one that counts. -/
theorem fault_local_behind_a_number :
    decode "\x7b\n\"title\":51,\"id\":\"a\"\x7d" "https://h/t" "s" =
        .error ⟨.wrongType (.integer 51) .string, ⟨2, 10⟩⟩ ∧
      decode "\x7b\n\"title\":51,no" "" "" =
        .error ⟨.wrongType (.integer 51) .string, ⟨2, 10⟩⟩ := by
  have hfault : decode "\x7b\n\"title\":51,\"id\":\"a\"\x7d" "https://h/t" "s" =
      .error ⟨.wrongType (.integer 51) .string, ⟨2, 10⟩⟩ := by
    decide +kernel
  exact ⟨hfault, (fault_local hfault).2.2 (by decide +kernel) _ _ _ (by decide +kernel)⟩

end Message

end TopicFeed
