import TopicFeed.Proofs.Json.Grammar

/-!
Reading blanks, strings and numerals.

Each of these readers takes exactly what the grammar derives off the front of a text: whatever it
reads is derived, and whatever is derived is read, with the rest left as it is. A numeral is read
as far as it goes, so there the rest must not go on with it.
-/

namespace TopicFeed.Json

open Ascii Grammar

/-! ### Blanks -/

lemma blanks_nil : Blanks [] := by simp [Blanks]

lemma blanks_append {a b : Bytes} (ha : Blanks a) (hb : Blanks b) : Blanks (a ++ b) := by
  intro x hx
  rcases List.mem_append.mp hx with hx | hx
  · exact ha x hx
  · exact hb x hx

/-- The bytes before the first one that is no blank. -/
lemma skipBlanks_sound {s t : Bytes} (h : skipBlanks s = t) : ∃ a, Blanks a ∧ s = a ++ t := by
  have hall : (s.takeWhile isBlank).all isBlank = true := List.all_takeWhile
  subst h
  exact ⟨s.takeWhile isBlank, List.all_eq_true.mp hall, List.takeWhile_append_dropWhile.symm⟩

lemma skipBlanks_append {a : Bytes} (ha : Blanks a) (s : Bytes) :
    skipBlanks (a ++ s) = skipBlanks s := List.dropWhile_append_of_pos ha

lemma skipBlanks_cons {c : UInt8} (hc : isBlank c = false) (s : Bytes) :
    skipBlanks (c :: s) = c :: s := by
  simp [skipBlanks, hc]

lemma skipBlanks_upTo {a : Bytes} (ha : Blanks a) {c : UInt8} (hc : isBlank c = false) (s : Bytes) :
    skipBlanks (a ++ c :: s) = c :: s := by
  rw [skipBlanks_append ha, skipBlanks_cons hc]

lemma isBlank_of_skipBlanks {s t : Bytes} {c : UInt8} (h : skipBlanks s = c :: t) :
    isBlank c = false := by
  have hhead := List.head?_dropWhile_not isBlank s
  rw [skipBlanks] at h
  rw [h] at hhead
  simpa using hhead

@[simp] lemma skipBlanks_idem (s : Bytes) : skipBlanks (skipBlanks s) = skipBlanks s := by
  rcases h : skipBlanks s with _ | ⟨c, t⟩
  · rfl
  · exact skipBlanks_cons (isBlank_of_skipBlanks h) t

lemma blanks_of_skipBlanks_eq_nil {s : Bytes} (h : skipBlanks s = []) : Blanks s := by
  obtain ⟨a, ha, rfl⟩ := skipBlanks_sound h
  rw [List.append_nil]
  exact ha

/-- Behind a value stands a blank, a comma, a closing bracket, or nothing. -/
def Stops : Bytes → Prop
  | [] => True
  | c :: _ => isBlank c = true ∨ c = comma ∨ c = closeBracket ∨ c = closeBrace

lemma stops_append {a s : Bytes} (ha : Blanks a) (hs : Stops s) : Stops (a ++ s) := by
  cases a with
  | nil => exact hs
  | cons c a => exact .inl (ha c (by simp))

lemma stops_close (b : Bracket) (s : Bytes) : Stops (b.close :: s) := by
  cases b with
  | list => exact .inr (.inr (.inl rfl))
  | object => exact .inr (.inr (.inr rfl))

lemma stops_comma (s : Bytes) : Stops (comma :: s) := .inr (.inl rfl)

/-! ### Words -/

lemma word_append (w s : Bytes) : word w (w ++ s) = .ok s := by
  induction w with
  | nil => rfl
  | cons c w ih => simpa [word] using ih

/-- The three words, by their first bytes. -/
lemma mem_words_iff {s : Bytes} :
    s ∈ words ↔ ∃ c w x, s = c :: w ∧ wordOf? c = some (w, x) := by
  constructor
  · intro h
    simp only [words, List.mem_cons, List.not_mem_nil, or_false] at h
    rcases h with rfl | rfl | rfl <;> exact ⟨_, _, _, rfl, rfl⟩
  · rintro ⟨c, w, x, rfl, h⟩
    unfold wordOf? at h
    split at h
    · next hc => cases h; simp [words, hc]
    · split at h
      · next hc => cases h; simp [words, hc]
      · split at h
        · next hc => cases h; simp [words, hc]
        · cases h

/-! ### Strings -/

lemma letterEscape?_eq_some_iff {c b : UInt8} : letterEscape? c = some b ↔ (c, b) ∈ letters := by
  constructor
  · intro h
    unfold letterEscape? at h
    split at h
    · next hc =>
      cases h
      rcases hc with rfl | rfl | rfl <;> decide
    · repeat' split at h
      all_goals cases h
      all_goals subst c; decide
  · intro h
    simp only [letters, List.mem_cons, List.not_mem_nil, or_false, Prod.mk.injEq] at h
    rcases h with h | h | h | h | h | h | h | h
    all_goals
      obtain ⟨rfl, rfl⟩ := h
      decide

lemma hexCode_sound {s r : Bytes} {n : Nat} (h : hexCode s = .ok (n, r)) :
    ∃ d, HexCode d n ∧ s = d ++ r := by
  unfold hexCode at h
  split at h
  · next a b c d t =>
    split at h
    · next ha hb hc hd =>
      cases h
      exact ⟨[a, b, c, d], .mk ha hb hc hd, rfl⟩
    · cases h
  · cases h

lemma hexCode_complete {d : Bytes} {n : Nat} (h : HexCode d n) (r : Bytes) :
    hexCode (d ++ r) = .ok (n, r) := by
  obtain ⟨ha, hb, hc, hd⟩ := h
  simp [hexCode, ha, hb, hc, hd]

lemma lowSurrogate_sound {high : Nat} {s w r : Bytes} (h : lowSurrogate high s = .ok (w, r)) :
    ∃ e low, HexCode e low ∧ (0xDC00 ≤ low ∧ low ≤ 0xDFFF) ∧
      s = backslash :: 0x75 :: e ++ r ∧
      w = String.utf8EncodeChar (Char.ofNat (codePoint high low)) := by
  unfold lowSurrogate at h
  split at h
  · cases h
  · next a s =>
    split at h
    · cases h
    · next ha =>
      split at h
      · cases h
      · next u s =>
        split at h
        · cases h
        · next hu =>
          split at h
          · cases h
          · next low r' hx =>
            split at h
            · next hlow =>
              cases h
              obtain ⟨e, he, rfl⟩ := hexCode_sound hx
              rw [ne_eq, not_not] at ha hu
              exact ⟨e, low, he, hlow, by rw [ha, hu]; rfl, rfl⟩
            · cases h

lemma lowSurrogate_complete {high low : Nat} {e : Bytes} (he : HexCode e low)
    (hlow : 0xDC00 ≤ low ∧ low ≤ 0xDFFF) (r : Bytes) :
    lowSurrogate high (backslash :: 0x75 :: (e ++ r)) =
      .ok (String.utf8EncodeChar (Char.ofNat (codePoint high low)), r) := by
  simp only [lowSurrogate, ne_eq, not_true_eq_false, if_false, hexCode_complete he, if_pos hlow]

/-- An escape that is kept is a piece of a string with what it writes. -/
lemma escape_kept_sound {s w r : Bytes} (h : escape .kept s = .ok (w, r)) :
    ∃ p, Piece p (some w) ∧ backslash :: s = p ++ r := by
  unfold escape at h
  split at h
  · cases h
  · next c s =>
    split at h
    · next hc =>
      unfold unicodeEscape at h
      split at h
      · cases h
      · next code r' hx =>
        obtain ⟨d, hd, rfl⟩ := hexCode_sound hx
        simp only at h
        split at h
        · cases h
        · split at h
          · next hlow hhigh =>
            obtain ⟨e, low, he, hlow', rfl, rfl⟩ := lowSurrogate_sound h
            exact ⟨_, .pair hd he hhigh hlow', by
              simp only [hc, List.cons_append, List.append_assoc]⟩
          · next hlow hhigh =>
            cases h
            exact ⟨_, .unit hd (by omega), by simp only [hc, List.cons_append]⟩
    · split at h
      · next b hb =>
        cases h
        exact ⟨[backslash, c], .letter (letterEscape?_eq_some_iff.mp hb), rfl⟩
      · cases h

lemma escape_skipped_sound {s w r : Bytes} (h : escape .skipped s = .ok (w, r)) :
    ∃ p v, Piece p v ∧ backslash :: s = p ++ r := by
  unfold escape at h
  split at h
  · cases h
  · next c s =>
    split at h
    · next hc =>
      unfold unicodeEscape at h
      split at h
      · cases h
      · next code r' hx =>
        obtain ⟨d, hd, rfl⟩ := hexCode_sound hx
        simp only at h
        cases h
        by_cases hn : 0xD800 ≤ code ∧ code ≤ 0xDFFF
        · exact ⟨_, _, .lone hd hn, by simp only [hc, List.cons_append]⟩
        · exact ⟨_, _, .unit hd (by omega), by simp only [hc, List.cons_append]⟩
    · split at h
      · next b hb =>
        cases h
        exact ⟨[backslash, c], _, .letter (letterEscape?_eq_some_iff.mp hb), rfl⟩
      · cases h

lemma string_kept_sound {done s w r : Bytes} (h : string .kept done s = .ok (w, r)) :
    ∃ raw v, PairedChars raw v ∧ s = raw ++ quote :: r ∧ w = done.reverse ++ v := by
  fun_induction string .kept done s with
  | case1 => cases h
  | case2 done s =>
    cases h
    exact ⟨[], [], .nil, rfl, by simp⟩
  | case3 => cases h
  | case4 done s written r' he hq hlt ih =>
    obtain ⟨raw, v, hraw, rfl, rfl⟩ := ih h
    obtain ⟨p, hp, hs⟩ := escape_kept_sound he
    exact ⟨p ++ raw, written ++ v, .cons hp hraw, by rw [hs]; simp, by simp⟩
  | case5 => cases h
  | case6 done c s hq hb hc ih =>
    obtain ⟨raw, v, hraw, rfl, rfl⟩ := ih h
    have hp : Piece [c] (some [c]) := .plain hq hb (UInt8.not_lt.mp hc)
    exact ⟨c :: raw, c :: v, .cons hp hraw, rfl, by simp⟩

lemma string_skipped_sound {done s w r : Bytes} (h : string .skipped done s = .ok (w, r)) :
    ∃ raw, Chars raw ∧ s = raw ++ quote :: r := by
  fun_induction string .skipped done s with
  | case1 => cases h
  | case2 done s =>
    cases h
    exact ⟨[], .nil, rfl⟩
  | case3 => cases h
  | case4 done s written r' he hq hlt ih =>
    obtain ⟨raw, hraw, rfl⟩ := ih h
    obtain ⟨p, v, hp, hs⟩ := escape_skipped_sound he
    exact ⟨p ++ raw, .cons hp hraw, by rw [hs]; simp⟩
  | case5 => cases h
  | case6 done c s hq hb hc ih =>
    obtain ⟨raw, hraw, rfl⟩ := ih h
    have hp : Piece [c] (some [c]) := .plain hq hb (UInt8.not_lt.mp hc)
    exact ⟨c :: raw, .cons hp hraw, rfl⟩

/-! ### Pieces are read as they are -/

lemma string_quote (m : Manner) (done s : Bytes) :
    string m done (quote :: s) = .ok (done.reverse, s) := by
  rw [string, if_pos rfl]

lemma string_plain (m : Manner) {c : UInt8} (hq : c ≠ quote) (hb : c ≠ backslash)
    (hc : 0x20 ≤ c) (done s : Bytes) : string m done (c :: s) = string m (c :: done) s := by
  rw [string, if_neg hq, if_neg hb, if_neg (UInt8.not_lt.mpr hc)]

lemma string_escape {m : Manner} {s w r : Bytes} (h : escape m s = .ok (w, r)) (done : Bytes) :
    string m done (backslash :: s) = string m (w.reverse ++ done) r := by
  rw [string, if_neg (by decide), if_pos rfl]
  split
  · next h' => rw [h] at h'; cases h'
  · next h' =>
    rw [h] at h'
    cases h'
    rfl

lemma escape_letter (m : Manner) {c b : UInt8} (hletter : (c, b) ∈ letters) (s : Bytes) :
    escape m (c :: s) = .ok ([b], s) := by
  have h := letterEscape?_eq_some_iff.mpr hletter
  have hnone : letterEscape? 0x75 = none := by decide
  have hc : c ≠ 0x75 := by
    rintro rfl
    rw [hnone] at h
    cases h
  simp [escape, hc, h]

lemma escape_unit {m : Manner} {d w r s : Bytes} (h : unicodeEscape m (d ++ s) = .ok (w, r)) :
    escape m (0x75 :: (d ++ s)) = .ok (w, r) := by
  rw [escape, if_pos rfl, h]

/-- A string that is kept takes in a piece and what it writes. -/
lemma string_kept_piece {p w : Bytes} (h : Piece p (some w)) (done s : Bytes) :
    string .kept done (p ++ s) = string .kept (w.reverse ++ done) s := by
  cases h with
  | plain hq hb hc => exact string_plain .kept hq hb hc done s
  | letter hc => exact string_escape (escape_letter .kept hc s) done
  | @unit d n hd hn =>
    refine string_escape (escape_unit ?_) done
    simp only [unicodeEscape, hexCode_complete hd]
    rw [if_neg (by omega), if_neg (by omega)]
  | @pair d e high low hd he hhigh hlow =>
    rw [List.append_assoc]
    refine string_escape (escape_unit ?_) done
    simp only [unicodeEscape, hexCode_complete hd]
    rw [if_neg (by omega), if_pos hhigh]
    exact lowSurrogate_complete he hlow s

lemma string_skipped_piece {p : Bytes} {w : Option Bytes} (h : Piece p w) (done s : Bytes) :
    ∃ v, string .skipped done (p ++ s) = string .skipped (v ++ done) s := by
  have hunit : ∀ {d : Bytes} {n : Nat}, HexCode d n → ∀ done s : Bytes,
      string .skipped done (backslash :: 0x75 :: (d ++ s)) = string .skipped done s := by
    intro d n hd done s
    have hunicode : unicodeEscape .skipped (d ++ s) = .ok ([], s) := by
      simp only [unicodeEscape, hexCode_complete hd]
    exact string_escape (escape_unit hunicode) done
  cases h with
  | @plain b hq hb hc => exact ⟨[b], string_plain .skipped hq hb hc done s⟩
  | @letter c b hc => exact ⟨[b], string_escape (escape_letter .skipped hc s) done⟩
  | unit hd hn => exact ⟨[], hunit hd done s⟩
  | pair hd he hhigh hlow =>
    refine ⟨[], ?_⟩
    rw [List.append_assoc]
    exact (hunit hd done _).trans (hunit he done s)
  | lone hd hn => exact ⟨[], hunit hd done s⟩

lemma string_kept_complete {raw w : Bytes} (h : PairedChars raw w) (done r : Bytes) :
    string .kept done (raw ++ quote :: r) = .ok (done.reverse ++ w, r) := by
  induction h generalizing done with
  | nil => simpa using string_quote .kept done r
  | cons hp hs ih =>
    rw [List.append_assoc, string_kept_piece hp, ih]
    simp

lemma string_skipped_complete {raw : Bytes} (h : Chars raw) (done r : Bytes) :
    ∃ w, string .skipped done (raw ++ quote :: r) = .ok (w, r) := by
  induction h generalizing done with
  | nil => exact ⟨_, string_quote .skipped done r⟩
  | cons hp hs ih =>
    obtain ⟨v, hv⟩ := string_skipped_piece hp done (_ ++ quote :: r)
    rw [List.append_assoc, hv]
    exact ih _

/-! ### Numerals -/

/-- The text does not begin with a byte of the given kind. -/
def Avoids (p : UInt8 → Prop) (s : Bytes) : Prop := ∀ c ∈ s.head?, ¬ p c

lemma Avoids.nil (p : UInt8 → Prop) : Avoids p [] := by simp [Avoids]

lemma Avoids.cons {p : UInt8 → Prop} {c : UInt8} (h : ¬ p c) (s : Bytes) : Avoids p (c :: s) := by
  intro d hd
  obtain rfl : c = d := by simpa using hd
  exact h

lemma Avoids.mono {p q : UInt8 → Prop} {s : Bytes} (hs : Avoids p s) (h : ∀ c, q c → p c) :
    Avoids q s :=
  fun c hc hq => hs c hc (h c hq)

lemma Avoids.append {p : UInt8 → Prop} {a s : Bytes} (ha : a ≠ [] → Avoids p a)
    (hs : Avoids p s) : Avoids p (a ++ s) := by
  cases a with
  | nil => exact hs
  | cons c a => exact Avoids.cons (ha (by simp) c (by simp)) _

/-- A byte that goes on with a numeral. -/
def IsNumeric (c : UInt8) : Prop := isDigit c = true ∨ c = dot ∨ IsExponentMark c

abbrev IsDigit (c : UInt8) : Prop := isDigit c = true

lemma Stops.avoids_numeric {s : Bytes} (h : Stops s) : Avoids IsNumeric s := by
  cases s with
  | nil => exact Avoids.nil _
  | cons c s =>
    refine Avoids.cons ?_ s
    have hdone : ∀ c : UInt8, isBlank c = true ∨ c = comma ∨ c = closeBracket ∨ c = closeBrace →
        isDigit c = false ∧ c ≠ dot ∧ c ≠ 0x65 ∧ c ≠ 0x45 := by
      intro c hc
      simp only [isBlank, Bool.or_eq_true, beq_iff_eq] at hc
      rcases hc with (((rfl | rfl) | rfl) | rfl) | rfl | rfl | rfl <;> decide
    obtain ⟨hdigit, hdot, he, hE⟩ := hdone c h
    rintro (hc | hc | hc | hc)
    · rw [hdigit] at hc
      cases hc
    · exact hdot hc
    · exact he hc
    · exact hE hc

/-- Digits are taken up to the first byte that is none. -/
lemma span_digits {ds r : Bytes} (hds : ∀ b ∈ ds, isDigit b = true) (hr : Avoids IsDigit r) :
    (ds ++ r).takeWhile isDigit = ds ∧ (ds ++ r).dropWhile isDigit = r := by
  have htake : r.takeWhile isDigit = [] := by
    cases r with
    | nil => rfl
    | cons c r =>
      have hc := hr c (by simp)
      simp [hc]
  have hdrop : r.dropWhile isDigit = r := by
    cases r with
    | nil => rfl
    | cons c r =>
      have hc := hr c (by simp)
      simp [hc]
  constructor
  · rw [List.takeWhile_append_of_pos hds, htake, List.append_nil]
  · rw [List.dropWhile_append_of_pos hds, hdrop]

lemma takeWhile_digits (s : Bytes) : ∀ b ∈ s.takeWhile isDigit, isDigit b = true := by
  have hall : (s.takeWhile isDigit).all isDigit = true := List.all_takeWhile
  exact List.all_eq_true.mp hall

lemma digits_cons {c : UInt8} {ds : Bytes} (hc : isDigit c = true)
    (hds : ∀ b ∈ ds, isDigit b = true) : Digits (c :: ds) := by
  refine ⟨by simp, ?_⟩
  intro b hb
  rcases List.mem_cons.mp hb with rfl | hb
  · exact hc
  · exact hds b hb

lemma wholePart_sound {m : Manner} {s w r : Bytes} (h : wholePart m s = .ok (w, r)) :
    Whole w ∧ s = w ++ r := by
  unfold wholePart at h
  split at h
  · cases h
  · next c s =>
    split at h
    · next hc =>
      split at h
      · cases h
      · cases h
        subst hc
        exact ⟨⟨digits_cons (by decide) (by simp), .inl rfl⟩, rfl⟩
    · next hc =>
      split at h
      · next hdigit =>
        cases h
        have hne : (c :: s.takeWhile isDigit).head? ≠ some zero := by simpa using hc
        refine ⟨⟨digits_cons hdigit (takeWhile_digits s), .inr hne⟩, ?_⟩
        rw [List.cons_append, List.takeWhile_append_dropWhile]
      · cases h

lemma wholePart_complete {m : Manner} {w r : Bytes} (hw : Whole w) (hr : Avoids IsDigit r) :
    wholePart m (w ++ r) = .ok (w, r) := by
  obtain ⟨⟨hne, hdigits⟩, hzero⟩ := hw
  obtain ⟨c, ds, rfl⟩ := List.exists_cons_of_ne_nil hne
  by_cases hc : c = zero
  · have hds : ds = [] := by
      rcases hzero with h | h
      · exact (List.cons.inj h).2
      · exact absurd (by rw [hc]; rfl) h
    subst hds hc
    have hhead : (r.head?.map isDigit).getD false = false := by
      cases r with
      | nil => rfl
      | cons c r =>
        have hc := hr c (by simp)
        simpa using hc
    simp [wholePart, hhead]
  · have hdigit : isDigit c = true := hdigits c (by simp)
    have htail : ∀ b ∈ ds, isDigit b = true := fun b hb => hdigits b (List.mem_cons_of_mem c hb)
    obtain ⟨htake, hdrop⟩ := span_digits htail hr
    rw [List.cons_append, wholePart, if_neg hc, if_pos hdigit, htake, hdrop]

lemma fractionPart_sound {m : Manner} {s ds r : Bytes} (h : fractionPart m s = .ok (ds, r)) :
    ∃ f, Fraction ds f ∧ s = f ++ r := by
  unfold fractionPart at h
  split at h
  · cases h
    exact ⟨[], .none, rfl⟩
  · next c s =>
    split at h
    · next hc =>
      split at h
      · cases h
      · next d ds htake =>
        cases h
        have hdigits : Digits (d :: ds) := ⟨by simp, htake ▸ takeWhile_digits s⟩
        refine ⟨dot :: d :: ds, .some hdigits, ?_⟩
        rw [hc, ← htake, List.cons_append, List.takeWhile_append_dropWhile]
    · cases h
      exact ⟨[], .none, rfl⟩

lemma fractionPart_complete {m : Manner} {ds f r : Bytes} (h : Fraction ds f)
    (hr : Avoids (fun c => IsDigit c ∨ c = dot) r) : fractionPart m (f ++ r) = .ok (ds, r) := by
  cases h with
  | none =>
    cases r with
    | nil => rfl
    | cons c r =>
      have hc : c ≠ dot := fun hc => hr c (by simp) (.inr hc)
      rw [List.nil_append, fractionPart, if_neg hc]
  | some hds =>
    obtain ⟨hne, hdigits⟩ := hds
    obtain ⟨d, ds, rfl⟩ := List.exists_cons_of_ne_nil hne
    obtain ⟨htake, hdrop⟩ := span_digits hdigits (hr.mono fun _ => .inl)
    rw [List.cons_append, fractionPart, if_pos rfl, htake, hdrop]

lemma exponentPart_sound {m : Manner} {s r : Bytes} {x : Option (Bool × Bytes)}
    (h : exponentPart m s = .ok (x, r)) : ∃ e, Exponent x e ∧ s = e ++ r := by
  unfold exponentPart at h
  split at h
  · cases h
    exact ⟨[], .none, rfl⟩
  · next c s =>
    split at h
    · next hc =>
      split at h
      · cases h
      · next negative d t hsign =>
        split at h
        · next hd =>
          cases h
          have hdigits := digits_cons hd (takeWhile_digits t)
          have ht : d :: t = d :: t.takeWhile isDigit ++ t.dropWhile isDigit := by
            rw [List.cons_append, List.takeWhile_append_dropWhile]
          unfold exponentSign at hsign
          split at hsign
          · cases hsign
          · next a s =>
            split at hsign
            · next ha =>
              cases hsign
              exact ⟨_, .minus hc hdigits, by rw [ha, ht]; rfl⟩
            · split at hsign
              · next ha =>
                cases hsign
                exact ⟨_, .plus hc hdigits, by rw [ha, ht]; rfl⟩
              · cases hsign
                exact ⟨_, .bare hc hdigits, by rw [ht]; rfl⟩
        · cases h
    · cases h
      exact ⟨[], .none, rfl⟩

lemma exponentSign_digit {d : UInt8} (hd : isDigit d = true) (s : Bytes) :
    exponentSign (d :: s) = (false, d :: s) := by
  have hminus : d ≠ minus := by
    rintro rfl
    revert hd
    decide
  have hplus : d ≠ plus := by
    rintro rfl
    revert hd
    decide
  rw [exponentSign, if_neg hminus, if_neg hplus]

/-- The digits of an exponent are taken behind its sign. -/
lemma exponentPart_of_sign {m : Manner} {c : UInt8} {negative : Bool} {s ds r : Bytes}
    (hc : IsExponentMark c) (hs : exponentSign s = (negative, ds ++ r)) (hds : Digits ds)
    (hr : Avoids IsDigit r) : exponentPart m (c :: s) = .ok (some (negative, ds), r) := by
  obtain ⟨hne, hdigits⟩ := hds
  obtain ⟨d, ds, rfl⟩ := List.exists_cons_of_ne_nil hne
  have hd : isDigit d = true := hdigits d (by simp)
  have htail : ∀ b ∈ ds, isDigit b = true := fun b hb => hdigits b (List.mem_cons_of_mem d hb)
  obtain ⟨htake, hdrop⟩ := span_digits htail hr
  have hmark : c = 0x65 ∨ c = 0x45 := hc
  rw [exponentPart, if_pos hmark, hs]
  simp only [List.cons_append, if_pos hd, htake, hdrop]

lemma exponentPart_complete {m : Manner} {x : Option (Bool × Bytes)} {e r : Bytes}
    (h : Exponent x e) (hr : Avoids (fun c => IsDigit c ∨ IsExponentMark c) r) :
    exponentPart m (e ++ r) = .ok (x, r) := by
  have hdigit : Avoids IsDigit r := hr.mono fun _ => .inl
  cases h with
  | none =>
    cases r with
    | nil => rfl
    | cons c r =>
      have hc : ¬ (c = 0x65 ∨ c = 0x45) := fun hc => hr c (by simp) (.inr hc)
      rw [List.nil_append, exponentPart, if_neg hc]
  | bare hc hds =>
    refine exponentPart_of_sign hc ?_ hds hdigit
    obtain ⟨hne, hdigits⟩ := hds
    obtain ⟨d, ds, rfl⟩ := List.exists_cons_of_ne_nil hne
    exact exponentSign_digit (hdigits d (by simp)) _
  | plus hc hds => exact exponentPart_of_sign hc rfl hds hdigit
  | minus hc hds => exact exponentPart_of_sign hc rfl hds hdigit

lemma numeral_sound {m : Manner} {negative : Bool} {n : Numeral} {s r : Bytes}
    (h : numeral m negative s = .ok (n, r)) :
    n.negative = negative ∧ ∃ t, Unsigned n t ∧ s = t ++ r := by
  simp only [numeral, bind, Except.bind, pure, Except.pure] at h
  split at h
  · cases h
  · next w hw =>
    split at h
    · cases h
    · next f hf =>
      split at h
      · cases h
      · next e he =>
        cases h
        obtain ⟨hwhole, rfl⟩ := wholePart_sound (w := w.1) (r := w.2) hw
        obtain ⟨u, hfraction, hu⟩ : ∃ u, Fraction f.1 u ∧ w.2 = u ++ f.2 := fractionPart_sound hf
        obtain ⟨v, hexponent, hv⟩ := exponentPart_sound (x := e.1) (r := e.2) he
        refine ⟨rfl, w.1 ++ u ++ v, .mk hwhole hfraction hexponent, ?_⟩
        rw [hu, hv, List.append_assoc, List.append_assoc]

lemma numeral_complete {m : Manner} {n : Numeral} {t r : Bytes} (h : Unsigned n t)
    (hr : Avoids IsNumeric r) (negative : Bool) :
    numeral m negative (t ++ r) = .ok ({ n with negative := negative }, r) := by
  obtain ⟨hw, hf, he⟩ := h
  rename_i whole fraction f e exponent
  have hfraction : Avoids (fun c => IsDigit c ∨ c = dot) (e ++ r) := by
    refine Avoids.append ?_ (hr.mono fun c hc => hc.imp_right .inl)
    intro _
    have hmark : ∀ {c : UInt8}, IsExponentMark c → ¬ (IsDigit c ∨ c = dot) := by
      rintro c (rfl | rfl) <;> decide
    cases he with
    | none => exact Avoids.nil _
    | bare hc _ => exact Avoids.cons (hmark hc) _
    | plus hc _ => exact Avoids.cons (hmark hc) _
    | minus hc _ => exact Avoids.cons (hmark hc) _
  have hwhole : Avoids IsDigit (f ++ (e ++ r)) := by
    refine Avoids.append ?_ (hfraction.mono fun _ => .inl)
    intro _
    cases hf with
    | none => exact Avoids.nil _
    | some _ => exact Avoids.cons (by decide) _
  have hexponent : Avoids (fun c => IsDigit c ∨ IsExponentMark c) r :=
    hr.mono fun c hc => hc.imp_right .inr
  simp only [numeral, bind, Except.bind, pure, Except.pure, List.append_assoc,
    wholePart_complete hw hwhole, fractionPart_complete hf hfraction,
    exponentPart_complete he hexponent]

end TopicFeed.Json
