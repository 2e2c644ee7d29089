import TopicFeed.Proofs.Json.Leaves

/-!
Skipping a value of any kind.

The skipping reader keeps the open brackets on a stack and has no call to come back to, so what it
reads behind a value is the rest of every container around it. `Behind` says what that rest looks
like. Soundness goes by the length of what is left, and completeness by the derivation of the value.
-/

namespace TopicFeed.Json

open Ascii Grammar

/-! ### How a value begins -/

/-- The first byte is neither a blank nor a closing bracket. -/
def Begins (s : Bytes) : Prop :=
  ∃ c t, s = c :: t ∧ isBlank c = false ∧ c ≠ closeBracket ∧ c ≠ closeBrace

lemma Begins.append {s : Bytes} (h : Begins s) (t : Bytes) : Begins (s ++ t) := by
  obtain ⟨c, u, rfl, hc⟩ := h
  exact ⟨c, u ++ t, rfl, hc⟩

lemma Begins.ne_close {c : UInt8} {t : Bytes} (h : Begins (c :: t)) (b : Bracket) :
    c ≠ b.close := by
  obtain ⟨d, u, hcons, -, hbracket, hbrace⟩ := h
  obtain ⟨rfl, rfl⟩ := List.cons.inj hcons
  cases b with
  | list => exact hbracket
  | object => exact hbrace

lemma Begins.skipBlanks {a s : Bytes} (ha : Blanks a) (h : Begins s) :
    skipBlanks (a ++ s) = s := by
  obtain ⟨c, t, rfl, hc, -⟩ := h
  exact skipBlanks_upTo ha hc t

lemma begins_of_wordOf? {c : UInt8} {w : Bytes} {x : Found} (h : wordOf? c = some (w, x))
    (t : Bytes) : Begins (c :: t) := by
  refine ⟨c, t, rfl, ?_⟩
  unfold wordOf? at h
  split at h
  · next hc => subst hc; decide
  · split at h
    · next hc => subst hc; decide
    · split at h
      · next hc => subst hc; decide
      · cases h

lemma ne_of_isDigit {c d : UInt8} (hc : isDigit c = true) (hd : isDigit d = false) : c ≠ d := by
  rintro rfl
  rw [hc] at hd
  cases hd

lemma wordOf?_of_isDigit {c : UInt8} (hc : isDigit c = true) : wordOf? c = none := by
  have hn : c ≠ 0x6E := ne_of_isDigit hc (by decide)
  have ht : c ≠ 0x74 := ne_of_isDigit hc (by decide)
  have hf : c ≠ 0x66 := ne_of_isDigit hc (by decide)
  rw [wordOf?, if_neg hn, if_neg ht, if_neg hf]

lemma isBlank_of_isDigit {c : UInt8} (hc : isDigit c = true) : isBlank c = false := by
  have hspace : c ≠ space := ne_of_isDigit hc (by decide)
  have htab : c ≠ tab := ne_of_isDigit hc (by decide)
  have hline : c ≠ lineFeed := ne_of_isDigit hc (by decide)
  have hreturn : c ≠ carriageReturn := ne_of_isDigit hc (by decide)
  simp only [isBlank, Bool.or_eq_false_iff, beq_eq_false_iff_ne]
  exact ⟨⟨⟨hspace, htab⟩, hline⟩, hreturn⟩

lemma Digits.first {s : Bytes} (h : Digits s) : ∃ c t, s = c :: t ∧ isDigit c = true := by
  obtain ⟨c, t, rfl⟩ := List.exists_cons_of_ne_nil h.1
  exact ⟨c, t, rfl, h.2 c (by simp)⟩

lemma begins_of_isDigit {c : UInt8} (hc : isDigit c = true) (t : Bytes) : Begins (c :: t) :=
  ⟨c, t, rfl, isBlank_of_isDigit hc, ne_of_isDigit hc (by decide), ne_of_isDigit hc (by decide)⟩

lemma Unsigned.first {n : Numeral} {s : Bytes} (h : Unsigned n s) :
    ∃ c t, s = c :: t ∧ isDigit c = true := by
  obtain ⟨hw, -, -⟩ := h
  obtain ⟨c, t, rfl, hc⟩ := Digits.first hw.1
  exact ⟨c, _, rfl, hc⟩

lemma begins_minus (t : Bytes) : Begins (minus :: t) := ⟨minus, t, rfl, by decide⟩

lemma begins_quote (t : Bytes) : Begins (quote :: t) := ⟨quote, t, rfl, by decide⟩

lemma begins_opener (b : Bracket) (t : Bytes) : Begins (opener b :: t) := by
  cases b with
  | list => exact ⟨openBracket, t, rfl, by decide⟩
  | object => exact ⟨openBrace, t, rfl, by decide⟩

/-- Every value begins with a byte of its own. -/
lemma begins_of_isValue {v : Bytes} (h : IsValue v) : Begins v := by
  cases h with
  | word hw =>
    obtain ⟨c, w, x, rfl, hword⟩ := mem_words_iff.mp hw
    exact begins_of_wordOf? hword w
  | number hn =>
    obtain ⟨n, t, ht, rfl | rfl⟩ := hn
    · obtain ⟨c, u, rfl, hc⟩ := Unsigned.first ht
      exact begins_of_isDigit hc u
    · exact begins_minus t
  | string hs =>
    obtain ⟨raw, -, rfl⟩ := hs
    exact begins_quote _
  | empty b _ => exact begins_opener b _
  | full b _ => exact begins_opener b _

/-! ### The beginning of a skipped value -/

lemma colonAfterKey_sound {s r : Bytes} (h : colonAfterKey s = .ok r) :
    ∃ a, Blanks a ∧ s = a ++ colon :: r := by
  unfold colonAfterKey at h
  split at h
  · cases h
  · next c t heq =>
    obtain ⟨a, ha, rfl⟩ := skipBlanks_sound heq
    split at h
    · next hc =>
      cases h
      exact ⟨a, ha, by rw [hc]⟩
    · cases h

lemma colonAfterKey_complete {a : Bytes} (ha : Blanks a) (r : Bytes) :
    colonAfterKey (a ++ colon :: r) = .ok r := by
  rw [colonAfterKey, skipBlanks_upTo ha rfl]
  simp

lemma enter_sound {b : Bracket} {s r : Bytes} (h : b.enter s = .ok r) :
    ∃ e, s = e ++ r ∧ ∀ a, Blanks a → Lead b (e ++ a) := by
  unfold Bracket.enter at h
  split at h
  · cases h
    exact ⟨[], rfl, fun a ha => .list ha⟩
  · split at h
    · cases h
    · next c t heq =>
      obtain ⟨a, ha, hs⟩ := skipBlanks_sound heq
      split at h
      · next hc =>
        split at h
        · cases h
        · next w u hstring =>
          rw [hc] at hs
          obtain ⟨raw, hraw, rfl⟩ := string_skipped_sound hstring
          obtain ⟨b, hb, rfl⟩ := colonAfterKey_sound h
          refine ⟨a ++ (quote :: raw ++ [quote]) ++ b ++ [colon], ?_, ?_⟩
          · rw [hs]
            simp
          · intro c hc
            have hlead : Lead .object (a ++ (quote :: raw ++ [quote]) ++ b ++ colon :: c) :=
              .object ha ⟨raw, hraw, rfl⟩ hb hc
            simpa using hlead
      · cases h

lemma enter_complete {b : Bracket} {e : Bytes} (h : Lead b e) (s : Bytes) :
    ∃ a, Blanks a ∧ b.enter (e ++ s) = .ok (a ++ s) := by
  cases h with
  | list ha => exact ⟨e, ha, rfl⟩
  | @object a k b c ha hk hb hc =>
    obtain ⟨raw, hraw, rfl⟩ := hk
    refine ⟨c, hc, ?_⟩
    obtain ⟨w, hw⟩ := string_skipped_complete hraw [] (b ++ colon :: (c ++ s))
    have hs : a ++ (quote :: raw ++ [quote]) ++ b ++ colon :: c ++ s =
        a ++ quote :: (raw ++ quote :: (b ++ colon :: (c ++ s))) := by simp
    rw [hs, Bracket.enter, skipBlanks_upTo ha rfl]
    simp only [if_true, hw, colonAfterKey_complete hb]

/-- A whole scalar, or the bracket that opens a container. -/
def Opened : Option Bracket → Bytes → Prop
  | none, v => IsValue v
  | some b, v => v = [opener b]

lemma opening_sound {s r : Bytes} {b : Option Bracket} (h : opening s = .ok (b, r)) :
    ∃ a v, Blanks a ∧ Opened b v ∧ s = a ++ v ++ r := by
  obtain ⟨a, ha, hs⟩ := skipBlanks_sound (s := s) rfl
  suffices hv : ∃ v, Opened b v ∧ skipBlanks s = v ++ r by
    obtain ⟨v, hv, heq⟩ := hv
    exact ⟨a, v, ha, hv, by rw [hs, heq, List.append_assoc]⟩
  unfold opening at h
  split at h
  · cases h
  · next c t heq =>
    rw [heq]
    split at h
    · -- a word
      next w x hword =>
      obtain ⟨u, hw, hmap⟩ := ok_of_map h
      cases hmap
      have hmem : c :: w ∈ words := mem_words_iff.mpr ⟨c, w, x, rfl, hword⟩
      exact ⟨c :: w, .word hmem, by rw [eq_append_of_word hw]; rfl⟩
    · split at h
      · -- a numeral behind a minus sign
        next hc =>
        obtain ⟨x, hn, hmap⟩ := ok_of_map h
        cases hmap
        obtain ⟨-, u, hu, rfl⟩ := numeral_sound (n := x.1) (r := x.2) hn
        exact ⟨c :: u, .number ⟨x.1, u, hu, .inr (by rw [hc])⟩, rfl⟩
      · split at h
        · -- a numeral without one
          obtain ⟨x, hn, hmap⟩ := ok_of_map h
          cases hmap
          obtain ⟨-, u, hu, heq⟩ := numeral_sound (n := x.1) (r := x.2) hn
          exact ⟨u, .number ⟨x.1, u, hu, .inl rfl⟩, heq⟩
        · split at h
          · -- a string
            next hc =>
            obtain ⟨x, hw, hmap⟩ := ok_of_map h
            cases hmap
            obtain ⟨raw, hraw, rfl⟩ := string_skipped_sound (w := x.1) (r := x.2) hw
            exact ⟨quote :: raw ++ [quote], .string ⟨raw, hraw, rfl⟩, by rw [hc]; simp⟩
          · split at h
            · next hc =>
              cases h
              exact ⟨[openBracket], rfl, by rw [hc]; rfl⟩
            · split at h
              · next hc =>
                cases h
                exact ⟨[openBrace], rfl, by rw [hc]; rfl⟩
              · cases h

lemma opening_append {a : Bytes} (ha : Blanks a) (s : Bytes) : opening (a ++ s) = opening s := by
  rw [opening, opening, skipBlanks_append ha]

lemma skipBlanks_of_begins {s : Bytes} (h : Begins s) : skipBlanks s = s :=
  h.skipBlanks blanks_nil

lemma opening_word {v : Bytes} (hv : v ∈ words) (r : Bytes) :
    opening (v ++ r) = .ok (none, r) := by
  obtain ⟨c, w, x, rfl, h⟩ := mem_words_iff.mp hv
  rw [List.cons_append, opening, skipBlanks_of_begins (begins_of_wordOf? h (w ++ r))]
  simp only [h, word_append, Except.map]

lemma opening_number {v r : Bytes} (h : IsNumber v) (hr : Stops r) :
    opening (v ++ r) = .ok (none, r) := by
  obtain ⟨n, t, ht, hv⟩ := h
  have hnumeral := numeral_complete (m := .skipped) ht hr.avoids_numeric
  rcases hv with rfl | rfl
  · obtain ⟨c, u, rfl, hc⟩ := Unsigned.first ht
    have hminus : c ≠ minus := ne_of_isDigit hc (by decide)
    rw [List.cons_append] at hnumeral ⊢
    rw [opening, skipBlanks_of_begins (begins_of_isDigit hc (u ++ r))]
    simp only [wordOf?_of_isDigit hc, if_neg hminus, if_pos hc, hnumeral, Except.map]
  · have hword : wordOf? minus = none := by decide
    rw [List.cons_append, opening, skipBlanks_of_begins (begins_minus (t ++ r))]
    simp only [hword, if_true, hnumeral, Except.map]

lemma opening_string {v : Bytes} (h : IsString v) (r : Bytes) :
    opening (v ++ r) = .ok (none, r) := by
  obtain ⟨raw, hraw, rfl⟩ := h
  have hword : wordOf? quote = none := by decide
  have hminus : quote ≠ minus := by decide
  have hdigit : ¬ isDigit quote = true := by decide
  obtain ⟨w, hw⟩ := string_skipped_complete hraw [] r
  have hv : quote :: raw ++ [quote] ++ r = quote :: (raw ++ quote :: r) := by simp
  rw [hv, opening, skipBlanks_of_begins (begins_quote _)]
  simp only [hword, if_neg hminus, if_neg hdigit, if_true, hw, Except.map]

lemma opening_opener (b : Bracket) (r : Bytes) : opening (opener b :: r) = .ok (some b, r) := by
  rw [opening, skipBlanks_of_begins (begins_opener b r)]
  cases b with
  | list => rfl
  | object => rfl

/-! ### Whatever is skipped is a value -/

/-- What stands behind a value inside the given open containers, until all of them are closed. -/
inductive Behind : List Bracket → Bytes → Prop
  | nil : Behind [] []
  | close {b : Bracket} {stack : List Bracket} {a p : Bytes} (ha : Blanks a)
      (hp : Behind stack p) : Behind (b :: stack) (a ++ b.close :: p)
  | more {b : Bracket} {stack : List Bracket} {a e v p : Bytes} (ha : Blanks a) (he : Lead b e)
      (hv : IsValue v) (hp : Behind (b :: stack) p) :
      Behind (b :: stack) (a ++ comma :: (e ++ v ++ p))

/-- The first value of a container and what stands behind it are the items of that container, its
closing bracket, and what stands behind the container. -/
lemma Behind.items {b : Bracket} {stack : List Bracket} {e v p : Bytes} (he : Lead b e)
    (hv : IsValue v) (h : Behind (b :: stack) p) :
    ∃ s q, Is (.items b) s ∧ Behind stack q ∧ e ++ v ++ p = s ++ b.close :: q := by
  generalize hopen : b :: stack = opened at h
  induction h generalizing e v with
  | nil => cases hopen
  | close ha hp _ =>
    obtain ⟨rfl, rfl⟩ := List.cons.inj hopen
    exact ⟨_, _, .last he hv ha, hp, by simp⟩
  | more ha he' hv' _ ih =>
    obtain ⟨rfl, rfl⟩ := List.cons.inj hopen
    obtain ⟨s, q, hs, hq, heq⟩ := ih he' hv' rfl
    exact ⟨_, q, .more he hv ha hs, hq, by rw [heq]; simp⟩

lemma lead_append {b : Bracket} {d e : Bytes} (hd : Blanks d) (h : Lead b e) : Lead b (d ++ e) := by
  cases h with
  | list ha => exact .list (blanks_append hd ha)
  | object ha hk hb hc =>
    have hlead := Lead.object (blanks_append hd ha) hk hb hc
    simpa using hlead

mutual

/-- What is skipped is a value and the rest of all open containers. -/
theorem skipValue_sound {stack : List Bracket} {s r : Bytes} (h : skipValue stack s = .ok r) :
    ∃ a v p, Blanks a ∧ IsValue v ∧ Behind stack p ∧ s = a ++ v ++ p ++ r := by
  rw [skipValue] at h
  split at h
  · cases h
  · -- a whole scalar
    next t hs =>
    have hlt : t.length < s.length := length_lt_of_opening hs
    obtain ⟨a, v, ha, hv, hst⟩ := opening_sound hs
    obtain ⟨p, hp, htr⟩ := skipBehind_sound h
    exact ⟨a, v, p, ha, hv, hp, by rw [hst, htr, List.append_assoc _ p]⟩
  · next b t hs =>
    have hlt : t.length < s.length := length_lt_of_opening hs
    obtain ⟨a, _, ha, rfl, hst⟩ := opening_sound hs
    split at h
    · cases h
    · next c u hu =>
      have hltu : u.length < s.length := Nat.lt_trans (length_lt_of_skipBlanks hu) hlt
      obtain ⟨d, hd, ht⟩ := skipBlanks_sound hu
      split at h
      · -- the container is closed at once
        next hc =>
        obtain ⟨p, hp, hur⟩ := skipBehind_sound h
        refine ⟨a, opener b :: d ++ [b.close], p, ha, .empty b hd, hp, ?_⟩
        rw [hst, ht, hc, hur]
        simp
      · split at h
        · cases h
        · -- its items, and what stands behind it, are skipped as one
          next w hw =>
          have hltw : w.length < s.length := by
            have hle := length_le_of_enter hw
            have hlen := length_skipBlanks_le t
            rw [hu] at hlen
            omega
          obtain ⟨e, hcu, he⟩ := enter_sound hw
          obtain ⟨f, v, p, hf, hv, hp, hwr⟩ := skipValue_sound h
          obtain ⟨items, q, hitems, hq, heq⟩ := hp.items (lead_append hd (he f hf)) hv
          refine ⟨a, opener b :: items ++ [b.close], q, ha, .full b hitems, hq, ?_⟩
          calc s = a ++ [opener b] ++ (d ++ (e ++ f) ++ v ++ p) ++ r := by
                rw [hst, ht, hcu, hwr]
                simp
            _ = a ++ (opener b :: items ++ [b.close]) ++ q ++ r := by
                rw [heq]
                simp
termination_by s.length

/-- What is read behind a value is the rest of all open containers. -/
theorem skipBehind_sound {stack : List Bracket} {s r : Bytes} (h : skipBehind stack s = .ok r) :
    ∃ p, Behind stack p ∧ s = p ++ r := by
  rw [skipBehind.eq_def] at h
  split at h
  · cases h
    exact ⟨[], .nil, rfl⟩
  · next b stack =>
    split at h
    · cases h
    · next c t heq =>
      have hlt := length_lt_of_skipBlanks heq
      obtain ⟨a, ha, hs⟩ := skipBlanks_sound heq
      split at h
      · -- another value in the same container
        next hc =>
        split at h
        · cases h
        · next u hu =>
          have hle := length_le_of_enter hu
          obtain ⟨e, he_eq, he⟩ := enter_sound hu
          obtain ⟨d, v, p, hd, hv, hp, hu_eq⟩ := skipValue_sound h
          refine ⟨a ++ comma :: (e ++ d ++ v ++ p), .more ha (he d hd) hv hp, ?_⟩
          rw [hs, hc, he_eq, hu_eq]
          simp
      · split at h
        · -- the container is closed, and the one around it goes on
          next hc =>
          obtain ⟨p, hp, ht⟩ := skipBehind_sound h
          refine ⟨a ++ b.close :: p, .close ha hp, ?_⟩
          rw [hs, hc, ht]
          simp
        · cases h
termination_by s.length

end

/-! ### Every value is skipped -/

lemma skipValue_append {a : Bytes} (ha : Blanks a) (stack : List Bracket) (s : Bytes) :
    skipValue stack (a ++ s) = skipValue stack s := by
  rw [skipValue, skipValue, opening_append ha]

lemma skipValue_scalar {stack : List Bracket} {s r : Bytes} (h : opening s = .ok (none, r)) :
    skipValue stack s = skipBehind stack r := by
  rw [skipValue]
  split
  · next h' => rw [h] at h'; cases h'
  · next h' =>
    rw [h] at h'
    cases h'
    rfl
  · next h' => rw [h] at h'; cases h'

lemma close_ne_comma (b : Bracket) : b.close ≠ comma := by
  cases b <;> decide

lemma isBlank_close (b : Bracket) : isBlank b.close = false := by
  cases b <;> decide

lemma skipValue_empty {a : Bytes} (ha : Blanks a) (b : Bracket) (stack : List Bracket) (r : Bytes) :
    skipValue stack (opener b :: (a ++ b.close :: r)) = skipBehind stack r := by
  have hopening := opening_opener b (a ++ b.close :: r)
  have hclose : skipBlanks (a ++ b.close :: r) = b.close :: r :=
    skipBlanks_upTo ha (isBlank_close b) _
  rw [skipValue]
  split
  · next h' => rw [hopening] at h'; cases h'
  · next h' => rw [hopening] at h'; cases h'
  · next h' =>
    rw [hopening] at h'
    cases h'
    split
    · next h' => rw [hclose] at h'; cases h'
    · next h' =>
      rw [hclose] at h'
      cases h'
      rw [if_pos rfl]

/-- An opening bracket that is not closed at once puts its container on the stack. -/
lemma skipValue_full {b : Bracket} {s u t : Bytes} {c : UInt8} (hs : skipBlanks s = c :: t)
    (hc : c ≠ b.close) (he : b.enter (c :: t) = .ok u) (stack : List Bracket) :
    skipValue stack (opener b :: s) = skipValue (b :: stack) u := by
  have hopening := opening_opener b s
  rw [skipValue]
  split
  · next h' => rw [hopening] at h'; cases h'
  · next h' => rw [hopening] at h'; cases h'
  · next h' =>
    rw [hopening] at h'
    cases h'
    split
    · next h' => rw [hs] at h'; cases h'
    · next h' =>
      rw [hs] at h'
      cases h'
      rw [if_neg hc]
      split
      · next h' => rw [he] at h'; cases h'
      · next h' =>
        rw [he] at h'
        cases h'
        rfl

lemma skipBehind_close {a : Bytes} (ha : Blanks a) (b : Bracket) (stack : List Bracket)
    (r : Bytes) : skipBehind (b :: stack) (a ++ b.close :: r) = skipBehind stack r := by
  have hclose : skipBlanks (a ++ b.close :: r) = b.close :: r :=
    skipBlanks_upTo ha (isBlank_close b) _
  rw [skipBehind]
  split
  · next h' => rw [hclose] at h'; cases h'
  · next h' =>
    rw [hclose] at h'
    cases h'
    rw [if_neg (close_ne_comma b), if_pos rfl]

lemma skipBehind_comma {b : Bracket} {a s u : Bytes} (ha : Blanks a) (he : b.enter s = .ok u)
    (stack : List Bracket) :
    skipBehind (b :: stack) (a ++ comma :: s) = skipValue (b :: stack) u := by
  have hcomma : skipBlanks (a ++ comma :: s) = comma :: s := skipBlanks_upTo ha rfl _
  rw [skipBehind]
  split
  · next h' => rw [hcomma] at h'; cases h'
  · next h' =>
    rw [hcomma] at h'
    cases h'
    rw [if_pos rfl]
    split
    · next h' => rw [he] at h'; cases h'
    · next h' =>
      rw [he] at h'
      cases h'
      rfl

/-- The reader stands in a container, before one of its values, and has skipped the rest of the
container when it goes on behind the closing bracket. -/
def Entered (b : Bracket) (stack : List Bracket) (s r : Bytes) : Prop :=
  ∃ u, b.enter s = .ok u ∧ skipValue (b :: stack) u = skipBehind stack r

/-- The blanks behind an opening bracket are skipped before the reader enters. -/
lemma Entered.skipBlanks {b : Bracket} {stack : List Bracket} {s r : Bytes}
    (h : Entered b stack s r) : Entered b stack (skipBlanks s) r := by
  obtain ⟨u, he, hu⟩ := h
  cases b with
  | list =>
    obtain ⟨a, ha, hs⟩ := skipBlanks_sound (s := s) rfl
    have hsu : s = u := by simpa [Bracket.enter] using he
    rw [← hsu, hs, skipValue_append ha] at hu
    exact ⟨_, rfl, hu⟩
  | object =>
    refine ⟨u, ?_, hu⟩
    rw [← he, Bracket.enter, Bracket.enter, skipBlanks_idem]

lemma lead_begin {b : Bracket} {e v : Bytes} (he : Lead b e) (hv : IsValue v) :
    ∃ a t, Blanks a ∧ Begins t ∧ e ++ v = a ++ t := by
  cases he with
  | list ha => exact ⟨e, v, ha, begins_of_isValue hv, rfl⟩
  | @object a k b c ha hk hb hc =>
    obtain ⟨raw, -, rfl⟩ := hk
    exact ⟨a, quote :: (raw ++ quote :: (b ++ colon :: (c ++ v))), ha, begins_quote _, by simp⟩

/-- The first byte of what stands in a container does not close it. -/
lemma items_begin {b : Bracket} {s : Bytes} (h : Is (.items b) s) :
    ∃ a t, Blanks a ∧ Begins t ∧ s = a ++ t := by
  cases h with
  | last he hv ha =>
    obtain ⟨a, t, ha', ht, heq⟩ := lead_begin he hv
    exact ⟨a, _, ha', ht.append _, by rw [heq, List.append_assoc]⟩
  | more he hv ha hs =>
    obtain ⟨a, t, ha', ht, heq⟩ := lead_begin he hv
    exact ⟨a, _, ha', ht.append _, by rw [heq, List.append_assoc, List.append_assoc]⟩

/-- How each part of a value is skipped. -/
def Skipped : Part → Bytes → Prop
  | .value, v => ∀ stack r, Stops r → skipValue stack (v ++ r) = skipBehind stack r
  | .items b, s => ∀ stack r, Entered b stack (s ++ b.close :: r) r

/-- A value behind its key is skipped in the container that it stands in. -/
lemma Entered.value {b : Bracket} {stack : List Bracket} {e v s r : Bytes} (he : Lead b e)
    (hv : Skipped .value v) (hs : Stops s) (h : skipBehind (b :: stack) s = skipBehind stack r) :
    Entered b stack (e ++ v ++ s) r := by
  obtain ⟨a, ha, henter⟩ := enter_complete he (v ++ s)
  refine ⟨a ++ (v ++ s), by rw [List.append_assoc, henter], ?_⟩
  rw [skipValue_append ha, hv (b :: stack) s hs, h]

/-- **Every value is skipped**, with the rest left as it is. -/
theorem skipped {part : Part} {s : Bytes} (h : Is part s) : Skipped part s := by
  induction h with
  | word hw =>
    intro stack r _
    exact skipValue_scalar (opening_word hw r)
  | number hn =>
    intro stack r hr
    exact skipValue_scalar (opening_number hn hr)
  | string hs =>
    intro stack r _
    exact skipValue_scalar (opening_string hs r)
  | @empty a b ha =>
    intro stack r _
    have hv : opener b :: a ++ [b.close] ++ r = opener b :: (a ++ b.close :: r) := by simp
    rw [hv, skipValue_empty ha]
  | @full s b hs ih =>
    intro stack r _
    have hv : opener b :: s ++ [b.close] ++ r = opener b :: (s ++ b.close :: r) := by simp
    obtain ⟨a, t, ha, ht, rfl⟩ := items_begin hs
    obtain ⟨u, henter, hu⟩ := (ih stack r).skipBlanks
    have ht' := ht.append (b.close :: r)
    have hfirst : skipBlanks (a ++ t ++ b.close :: r) = t ++ b.close :: r := by
      rw [List.append_assoc, ht'.skipBlanks ha]
    obtain ⟨c, w, hcons, -⟩ := id ht'
    rw [hfirst] at henter
    rw [hcons] at hfirst henter ht'
    rw [hv, skipValue_full hfirst (ht'.ne_close b) henter, hu]
  | @last b e v a he hv ha ih =>
    intro stack r
    rw [List.append_assoc]
    exact .value he ih (stops_append ha (stops_close b r)) (skipBehind_close ha b stack r)
  | @more b e v a s he hv ha hs ihv ihs =>
    intro stack r
    obtain ⟨u, henter, hu⟩ := ihs stack r
    have hsplit : e ++ v ++ a ++ comma :: s ++ b.close :: r =
        e ++ v ++ (a ++ comma :: (s ++ b.close :: r)) := by simp
    rw [hsplit]
    refine .value he ihv (stops_append ha (stops_comma _)) ?_
    rw [skipBehind_comma ha henter, hu]

/-! ### One value -/

theorem skip_sound {s r : Bytes} (h : skip s = .ok r) :
    ∃ a v, Blanks a ∧ IsValue v ∧ s = a ++ v ++ r := by
  obtain ⟨a, v, p, ha, hv, hp, hs⟩ := skipValue_sound h
  cases hp with
  | nil => exact ⟨a, v, ha, hv, by rw [hs, List.append_nil]⟩

theorem skip_complete {a v r : Bytes} (ha : Blanks a) (hv : IsValue v) (hr : Stops r) :
    skip (a ++ v ++ r) = .ok r := by
  rw [skip, List.append_assoc, skipValue_append ha, skipped hv [] r hr, skipBehind]

end TopicFeed.Json
