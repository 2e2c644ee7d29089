import TopicFeed.Proofs.Json.Skip

/-!
What the typed readers read.

A reader is described by the values that it takes and what they stand for. The description of a
reader that is made of others is put together from the descriptions of its parts, so the readers of
records need nothing but `Reads`.
-/

namespace TopicFeed.Json

open Ascii Grammar

/-- The reader takes the values of `V` and no others. Blanks may stand before a value. -/
structure Reader.Reads {α : Type} (r : Reader α) (V : Bytes → α → Prop) : Prop where
  begins : ∀ {v : Bytes} {x : α}, V v x → Begins v
  sound : ∀ {s t : Bytes} {x : α}, r.read s = .ok (x, t) →
    ∃ a v, Blanks a ∧ V v x ∧ s = a ++ v ++ t
  complete : ∀ {a v t : Bytes} {x : α}, Blanks a → V v x → Stops t →
    r.read (a ++ v ++ t) = .ok (x, t)

namespace Reader

theorem Reads.map {α β : Type} {r : Reader α} {V : Bytes → α → Prop} (h : r.Reads V) (f : α → β) :
    (r.map f).Reads fun s y => ∃ x, V s x ∧ y = f x where
  begins := by
    rintro v y ⟨x, hx, -⟩
    exact h.begins hx
  sound := by
    intro s t y hy
    cases hr : r.read s with
    | error e => simp [Reader.map, hr, Except.map] at hy
    | ok p =>
      simp only [Reader.map, hr, Except.map, Except.ok.injEq, Prod.mk.injEq] at hy
      obtain ⟨rfl, rfl⟩ := hy
      obtain ⟨a, v, ha, hv, hs⟩ := h.sound (x := p.1) (t := p.2) hr
      exact ⟨a, v, ha, ⟨p.1, hv, rfl⟩, hs⟩
  complete := by
    rintro a v t y ha ⟨x, hx, rfl⟩ ht
    simp only [Reader.map, h.complete ha hx ht, Except.map]

/-! ### Texts -/

theorem reads_text : Reader.text.Reads TextValue where
  begins := by
    rintro v x ⟨w, ⟨raw, -, rfl⟩, -⟩
    exact begins_quote _
  sound := by
    intro s t x hx
    simp only [Reader.text, readText] at hx
    split at hx
    · cases hx
    · next c u heq =>
      obtain ⟨a, ha, hs⟩ := skipBlanks_sound heq
      split at hx
      · next hc =>
        obtain ⟨p, hw, hmap⟩ := ok_of_map hx
        cases hmap
        obtain ⟨raw, w, hraw, hu, hp⟩ := string_kept_sound (w := p.1) (r := p.2) hw
        refine ⟨a, quote :: raw ++ [quote], ha, ⟨w, ⟨raw, hraw, rfl⟩, by rw [hp]; rfl⟩, ?_⟩
        rw [hs, hc, hu]
        simp
      · cases hx
  complete := by
    rintro a v t x ha ⟨w, ⟨raw, hraw, rfl⟩, rfl⟩ -
    have hs : a ++ (quote :: raw ++ [quote]) ++ t = a ++ quote :: (raw ++ quote :: t) := by simp
    have hw := string_kept_complete hraw [] t
    rw [List.reverse_nil, List.nil_append] at hw
    simp only [Reader.text, readText, hs, (begins_quote (raw ++ quote :: t)).skipBlanks ha,
      if_true, hw, Except.map]

end Reader

/-! ### Integers -/

/-- The number that digits go on to write behind `n`. -/
def decimal (n : Nat) (ds : Bytes) : Nat := ds.foldl (fun n d => n * 10 + digit d) n

lemma le_decimal (n : Nat) (ds : Bytes) : n ≤ decimal n ds := by
  induction ds generalizing n with
  | nil => exact Nat.le_refl n
  | cons d ds ih =>
    have hnext : n * 10 + digit d ≤ decimal n (d :: ds) := ih (n * 10 + digit d)
    omega

/-- Digits are all taken in as long as the number that they write stays in bounds. -/
lemma accumulate_of_le {limit n : Nat} {ds : Bytes} (h : decimal n ds ≤ limit) :
    accumulate limit n ds = (decimal n ds, []) := by
  induction ds generalizing n with
  | nil => rfl
  | cons d ds ih =>
    have hnext : n * 10 + digit d ≤ decimal n (d :: ds) := le_decimal (n * 10 + digit d) ds
    have hin : ¬ limit < n * 10 + digit d := by omega
    rw [accumulate]
    simp only [if_neg hin]
    exact ih h

lemma le_of_accumulate {limit n m : Nat} {ds : Bytes} (hn : n ≤ limit)
    (h : accumulate limit n ds = (m, [])) : m = decimal n ds ∧ decimal n ds ≤ limit := by
  induction ds generalizing n with
  | nil =>
    cases h
    exact ⟨rfl, hn⟩
  | cons d ds ih =>
    simp only [accumulate] at h
    split at h
    · cases h
    · next hin => exact ih (Nat.le_of_not_lt hin) h

/-- The integer that whole digits stand for, behind a minus sign or not. A negative zero is none. -/
def Denotes (negative : Bool) (w : Bytes) (i : Int) : Prop :=
  if negative then natural w ≠ 0 ∧ natural w ≤ 0x8000000000000000 ∧ i = -natural w
  else natural w ≤ maxWord ∧ i = natural w

lemma value_sound {n : Numeral} {i : Int} (h : n.value = .ok (.integer i)) :
    n.fraction = [] ∧ n.exponent = none ∧ Denotes n.negative n.whole i := by
  unfold Numeral.value at h
  rcases hlead : accumulate maxWord 0 n.whole with ⟨lead, moved⟩
  simp only [hlead] at h
  split at h
  · next hwhole =>
    simp only [Bool.and_eq_true, List.isEmpty_iff, Option.isNone_iff_eq_none] at hwhole
    obtain ⟨⟨rfl, hfraction⟩, hexponent⟩ := hwhole
    obtain ⟨rfl, hle⟩ := le_of_accumulate (Nat.zero_le _) hlead
    refine ⟨hfraction, hexponent, ?_⟩
    unfold Denotes
    split at h
    · next hsign =>
      cases h
      rw [Bool.not_eq_true'] at hsign
      rw [hsign]
      exact ⟨hle, rfl⟩
    · next hsign =>
      rw [Bool.not_eq_true', Bool.not_eq_false] at hsign
      rw [hsign, if_pos rfl]
      split at h
      · cases h
      · next hrange =>
        cases h
        simp only [Bool.or_eq_true, decide_eq_true_eq, not_or, Nat.not_lt] at hrange
        exact ⟨hrange.1, hrange.2, rfl⟩
  · -- Digits that do not fit, a fraction or an exponent make the value a double.
    repeat' split at h
    all_goals cases h

lemma value_complete {n : Numeral} {i : Int} (hf : n.fraction = []) (he : n.exponent = none)
    (h : Denotes n.negative n.whole i) : n.value = .ok (.integer i) := by
  unfold Numeral.value
  unfold Denotes at h
  split at h
  · next hsign =>
    obtain ⟨hne, hle, rfl⟩ := h
    have hword : 0x8000000000000000 ≤ maxWord := by decide
    have hlead : accumulate maxWord 0 n.whole = (natural n.whole, []) :=
      accumulate_of_le (Nat.le_trans hle hword)
    have hrange : ¬ (0x8000000000000000 < natural n.whole) := by omega
    simp [hlead, hf, he, hsign, hne, hrange]
  · next hsign =>
    obtain ⟨hle, rfl⟩ := h
    have hlead : accumulate maxWord 0 n.whole = (natural n.whole, []) := accumulate_of_le hle
    simp [hlead, hf, he, hsign]

lemma number_sound {negative : Bool} {s r : Bytes} {i : Int}
    (h : number negative s = .ok (.integer i, r)) :
    ∃ w, Whole w ∧ Denotes negative w i ∧ s = w ++ r := by
  unfold number at h
  split at h
  · cases h
  · next n u hn =>
    split at h
    · next x hx =>
      cases h
      obtain ⟨hsign, t, ht, hs⟩ := numeral_sound hn
      obtain ⟨hf, he, hi⟩ := value_sound hx
      rw [hsign] at hi
      obtain ⟨hw, hfraction, hexponent⟩ := ht
      simp only at hf he hi
      subst hf he
      cases hfraction with
      | none =>
        cases hexponent with
        | none => exact ⟨_, hw, hi, by rw [hs, List.append_nil, List.append_nil]⟩
      | some hds => exact absurd rfl hds.1
    · cases h

lemma number_complete {negative : Bool} {w r : Bytes} {i : Int} (hw : Whole w)
    (h : Denotes negative w i) (hr : Stops r) :
    number negative (w ++ r) = .ok (.integer i, r) := by
  have ht : Unsigned ⟨negative, w, [], none⟩ (w ++ [] ++ []) := .mk hw .none .none
  have hn := numeral_complete (m := .kept) ht hr.avoids_numeric negative
  rw [List.append_nil, List.append_nil] at hn
  have hx : Numeral.value ⟨negative, w, [], none⟩ = .ok (.integer i) := value_complete rfl rfl h
  simp only [number, hn, hx]

/-- Whole digits that write zero are a single zero. -/
lemma natural_eq_zero_iff {w : Bytes} (hw : Whole w) : natural w = 0 ↔ w = [zero] := by
  constructor
  · intro hzero
    obtain ⟨⟨hne, hdigits⟩, h | h⟩ := hw
    · exact h
    · obtain ⟨c, ds, rfl⟩ := List.exists_cons_of_ne_nil hne
      have hc : isDigit c = true := hdigits c (by simp)
      have hcz : c ≠ zero := by simpa using h
      have hpos : 0 < digit c := by
        simp only [isDigit, zero, nine, Bool.and_eq_true, decide_eq_true_eq,
          UInt8.le_iff_toNat_le, UInt8.reduceToNat] at hc
        have hval : c.toNat ≠ 48 := fun hval => hcz (UInt8.toNat_inj.mp hval)
        simp only [digit]
        omega
      have hle : 0 * 10 + digit c ≤ natural (c :: ds) := le_decimal (0 * 10 + digit c) ds
      omega
  · rintro rfl
    decide

lemma narrow_sound {k : IntegerType} {x : Number × Bytes} {i : Int} {r : Bytes}
    (h : k.narrow x = .ok (i, r)) : x = (.integer i, r) ∧ k.low ≤ i ∧ i ≤ k.high := by
  unfold IntegerType.narrow at h
  split at h
  · split at h
    · next hrange =>
      cases h
      exact ⟨rfl, hrange⟩
    · cases h
  · cases h

lemma narrow_complete {k : IntegerType} {i : Int} (hlow : k.low ≤ i) (hhigh : i ≤ k.high)
    (r : Bytes) : k.narrow (.integer i, r) = .ok (i, r) := by
  rw [IntegerType.narrow, if_pos ⟨hlow, hhigh⟩]

lemma readInteger_sound {k : IntegerType} {s t : Bytes} {i : Int}
    (h : readInteger k s = .ok (i, t)) :
    ∃ a v, Blanks a ∧ IntegerValue k v i ∧ s = a ++ v ++ t := by
  simp only [readInteger] at h
  split at h
  · cases h
  · next c u heq =>
    obtain ⟨a, ha, rfl⟩ := skipBlanks_sound heq
    suffices hv : ∃ v, IntegerValue k v i ∧ c :: u = v ++ t by
      obtain ⟨v, hv, heq⟩ := hv
      exact ⟨a, v, ha, hv, by rw [heq, List.append_assoc]⟩
    split at h
    · next hc =>
      split at h
      · cases h
      · next x hx =>
        obtain ⟨rfl, hrange⟩ := narrow_sound h
        obtain ⟨w, hw, hi, rfl⟩ := number_sound hx
        obtain ⟨hne, -, rfl⟩ := hi
        have hzero : w ≠ [zero] := fun hz => hne ((natural_eq_zero_iff hw).mpr hz)
        exact ⟨minus :: w, .minus hw hzero hrange.1 hrange.2, by rw [hc]; rfl⟩
    · split at h
      · split at h
        · cases h
        · next x hx =>
          obtain ⟨rfl, hrange⟩ := narrow_sound h
          obtain ⟨w, hw, ⟨-, rfl⟩, hwt⟩ := number_sound hx
          exact ⟨w, .plain hw hrange.1 hrange.2, hwt⟩
      · cases h

lemma readInteger_complete {k : IntegerType} (hlow : -0x8000000000000000 ≤ k.low)
    (hhigh : k.high ≤ maxWord) {a v t : Bytes} {i : Int} (ha : Blanks a) (hv : IntegerValue k v i)
    (ht : Stops t) : readInteger k (a ++ v ++ t) = .ok (i, t) := by
  cases hv with
  | plain hw hl hh =>
    have hi : Denotes false v (natural v) := by
      refine ⟨?_, rfl⟩
      omega
    have hn := number_complete hw hi ht
    obtain ⟨c, u, rfl, hc⟩ := Digits.first hw.1
    have hminus : c ≠ minus := ne_of_isDigit hc (by decide)
    rw [List.cons_append] at hn
    simp only [readInteger, List.append_assoc, ((begins_of_isDigit hc u).append t).skipBlanks ha]
    simp only [List.cons_append, if_neg hminus, if_pos hc, hn, narrow_complete hl hh]
  | @minus w hw hzero hl hh =>
    have hi : Denotes true w (-natural w) := by
      refine ⟨fun hz => hzero ((natural_eq_zero_iff hw).mp hz), ?_, rfl⟩
      omega
    have hn := number_complete hw hi ht
    simp only [readInteger, List.append_assoc, ((begins_minus w).append t).skipBlanks ha]
    simp only [List.cons_append, if_true, hn, narrow_complete hl hh]

/-- The integers of a type that fits into 64 bits, signed or unsigned. -/
theorem Reader.reads_integer {k : IntegerType} (hlow : -0x8000000000000000 ≤ k.low)
    (hhigh : k.high ≤ maxWord) :
    Reader.Reads ⟨readInteger k, length_lt_of_readInteger⟩ (IntegerValue k) where
  begins := by
    intro v i h
    cases h with
    | plain hw _ _ =>
      obtain ⟨c, t, rfl, hc⟩ := Digits.first hw.1
      exact begins_of_isDigit hc t
    | minus _ _ _ _ => exact begins_minus _
  sound := readInteger_sound
  complete := readInteger_complete hlow hhigh

/-! ### Lists -/

/-- What stands behind an element of a list, up to its closing bracket. -/
inductive ElementsBehind : List Bytes → Bytes → Prop
  | close {b : Bytes} (hb : Blanks b) : ElementsBehind [] (b ++ [closeBracket])
  | more {b a v p : Bytes} {vs : List Bytes} (hb : Blanks b) (ha : Blanks a)
      (hp : ElementsBehind vs p) : ElementsBehind (v :: vs) (b ++ comma :: (a ++ v ++ p))

lemma ElementsBehind.elements {vs : List Bytes} {p : Bytes} (h : ElementsBehind vs p) {a : Bytes}
    (ha : Blanks a) (v : Bytes) :
    ∃ s, Elements (v :: vs) s ∧ a ++ v ++ p = s ++ [closeBracket] := by
  induction h generalizing a v with
  | close hb => exact ⟨_, .one ha hb, by simp⟩
  | more hb ha' _ ih =>
    obtain ⟨s, hs, heq⟩ := ih ha' _
    exact ⟨_, .more ha hb hs, by rw [heq]; simp⟩

lemma Elements.behind {vs : List Bytes} {s : Bytes} (h : Elements vs s) :
    ∃ a v ws p, Blanks a ∧ ElementsBehind ws p ∧ vs = v :: ws ∧
      s ++ [closeBracket] = a ++ v ++ p := by
  induction h with
  | @one a v b ha hb => exact ⟨a, v, [], b ++ [closeBracket], ha, .close hb, rfl, by simp⟩
  | @more a v b s vs ha hb _ ih =>
    obtain ⟨a', v', ws, p, ha', hp, rfl, heq⟩ := ih
    refine ⟨a, v, v' :: ws, b ++ comma :: (a' ++ v' ++ p), ha, .more hb ha' hp, rfl, ?_⟩
    rw [← heq]
    simp

/-- A list is empty, or it has a first element with the others behind it. -/
theorem listOf_iff {vs : List Bytes} {s : Bytes} :
    ListOf vs s ↔
      (vs = [] ∧ ∃ a, Blanks a ∧ s = openBracket :: (a ++ [closeBracket])) ∨
      ∃ a v ws p, Blanks a ∧ ElementsBehind ws p ∧ vs = v :: ws ∧
        s = openBracket :: (a ++ v ++ p) := by
  constructor
  · intro h
    cases h with
    | empty ha => exact .inl ⟨rfl, _, ha, rfl⟩
    | full hs =>
      obtain ⟨a, v, ws, p, ha, hp, hvs, heq⟩ := Elements.behind hs
      exact .inr ⟨a, v, ws, p, ha, hp, hvs, by rw [← heq]; rfl⟩
  · rintro (⟨rfl, a, ha, rfl⟩ | ⟨a, v, ws, p, ha, hp, rfl, rfl⟩)
    · exact .empty ha
    · obtain ⟨s, hs, heq⟩ := hp.elements ha v
      rw [heq]
      exact .full hs

lemma ElementsBehind.stops {vs : List Bytes} {p : Bytes} (h : ElementsBehind vs p) (r : Bytes) :
    Stops (p ++ r) := by
  cases h with
  | close hb =>
    rw [List.append_assoc]
    exact stops_append hb (stops_close .list r)
  | more hb _ _ =>
    rw [List.append_assoc]
    exact stops_append hb (stops_comma _)

namespace Reader

variable {α : Type} {item : Reader α} {V : Bytes → α → Prop}

/-- A value, and blanks before it, are read from the first byte of the value on, which closes no
list. -/
lemma Reads.first (h : item.Reads V) {a v t : Bytes} {x : α} (ha : Blanks a) (hv : V v x)
    (ht : Stops t) :
    ∃ d u, skipBlanks (a ++ v ++ t) = d :: u ∧ d ≠ closeBracket ∧
      item.read (d :: u) = .ok (x, t) := by
  have hbegins := (h.begins hv).append t
  have hvalue := hbegins.skipBlanks ha
  have hread := h.complete blanks_nil hv ht
  obtain ⟨d, u, hcons, -⟩ := id hbegins
  rw [List.nil_append, hcons] at hread
  rw [hcons] at hbegins hvalue
  exact ⟨d, u, by rw [List.append_assoc, hcons, hvalue], hbegins.ne_close .list, hread⟩

lemma moreElements_close {b : Bytes} (hb : Blanks b) (done : List α) (r : Bytes) :
    moreElements item done (b ++ closeBracket :: r) = .ok (done.reverse, r) := by
  have hclose : skipBlanks (b ++ closeBracket :: r) = closeBracket :: r := skipBlanks_upTo hb rfl _
  rw [moreElements]
  split
  · next h' => rw [hclose] at h'; cases h'
  · next h' =>
    rw [hclose] at h'
    cases h'
    rw [if_pos rfl]

lemma Reads.moreElements_item (h : item.Reads V) {b a v t : Bytes} {x : α} (hb : Blanks b)
    (ha : Blanks a) (hv : V v x) (ht : Stops t) (done : List α) :
    moreElements item done (b ++ comma :: (a ++ v ++ t)) = moreElements item (x :: done) t := by
  have hcomma : skipBlanks (b ++ comma :: (a ++ v ++ t)) = comma :: (a ++ v ++ t) :=
    skipBlanks_upTo hb rfl _
  obtain ⟨d, u, hvalue, hd, hread⟩ := h.first ha hv ht
  rw [moreElements]
  split
  · next h' => rw [hcomma] at h'; cases h'
  · next h' =>
    rw [hcomma] at h'
    cases h'
    rw [if_neg (by decide), if_pos rfl]
    split
    · next h' => rw [hvalue] at h'; cases h'
    · next h' =>
      rw [hvalue] at h'
      cases h'
      rw [if_neg hd]
      split
      · next h' => rw [hread] at h'; cases h'
      · next h' =>
        rw [hread] at h'
        cases h'
        rfl

lemma Reads.moreElements_complete (h : item.Reads V) {vs : List Bytes} {p r : Bytes} {xs : List α}
    (hp : ElementsBehind vs p) (hxs : List.Forall₂ V vs xs) (done : List α) :
    moreElements item done (p ++ r) = .ok (done.reverse ++ xs, r) := by
  induction hp generalizing xs done with
  | close hb =>
    cases hxs
    rw [List.append_assoc, List.append_nil]
    exact moreElements_close hb done r
  | @more b a v p vs hb ha hp ih =>
    cases hxs with
    | @cons _ x _ xs hv hxs =>
      have hsplit : b ++ comma :: (a ++ v ++ p) ++ r = b ++ comma :: (a ++ v ++ (p ++ r)) := by simp
      rw [hsplit, h.moreElements_item hb ha hv (hp.stops r), ih hxs]
      simp

lemma Reads.moreElements_sound (h : item.Reads V) {done xs : List α} {s r : Bytes}
    (hs : moreElements item done s = .ok (xs, r)) :
    ∃ vs ys p, ElementsBehind vs p ∧ List.Forall₂ V vs ys ∧ xs = done.reverse ++ ys ∧
      s = p ++ r := by
  fun_induction moreElements item done s with
  | case1 => cases hs
  | case2 done s t heq =>
    cases hs
    obtain ⟨b, hb, rfl⟩ := skipBlanks_sound heq
    exact ⟨[], [], b ++ [closeBracket], .close hb, .nil, by simp, by simp⟩
  | case3 => cases hs
  | case4 => cases hs
  | case5 => cases hs
  | case6 done s d t u hd hne x w hread heq _ ih =>
    obtain ⟨vs, ys, p, hp, hys, rfl, rfl⟩ := ih hs
    obtain ⟨b, hb, rfl⟩ := skipBlanks_sound heq
    obtain ⟨c, hc, rfl⟩ := skipBlanks_sound hd
    obtain ⟨a, v, ha, hv, htu⟩ := h.sound hread
    have hitems : ElementsBehind (v :: vs) (b ++ comma :: (c ++ a ++ v ++ p)) :=
      .more hb (blanks_append hc ha) hp
    refine ⟨v :: vs, x :: ys, _, hitems, .cons hv hys, by simp, ?_⟩
    rw [htu]
    simp
  | case7 => cases hs

lemma Reads.readList_sound (h : item.Reads V) {s r : Bytes} {xs : List α}
    (hs : readList item s = .ok (xs, r)) :
    ∃ a v, Blanks a ∧ ListValue V v xs ∧ s = a ++ v ++ r := by
  rw [readList] at hs
  split at hs
  · cases hs
  · next c t heq =>
    obtain ⟨a, ha, rfl⟩ := skipBlanks_sound heq
    split at hs
    · next hc =>
      subst hc
      split at hs
      · cases hs
      · next d u hdu =>
        obtain ⟨b, hb, rfl⟩ := skipBlanks_sound hdu
        split at hs
        · next hd =>
          subst hd
          cases hs
          exact ⟨a, openBracket :: (b ++ [closeBracket]), ha, ⟨[], .empty hb, .nil⟩, by simp⟩
        · split at hs
          · cases hs
          · next x w hread =>
            obtain ⟨f, v, hf, hv, hcons⟩ := h.sound hread
            obtain ⟨vs, ys, p, hp, hys, rfl, rfl⟩ := h.moreElements_sound hs
            have hlist : ListOf (v :: vs) (openBracket :: (b ++ f ++ v ++ p)) :=
              listOf_iff.mpr (.inr ⟨b ++ f, v, vs, p, blanks_append hb hf, hp, rfl, rfl⟩)
            refine ⟨a, _, ha, ⟨v :: vs, hlist, .cons hv hys⟩, ?_⟩
            rw [hcons]
            simp
    · cases hs

lemma Reads.readList_complete (h : item.Reads V) {a s r : Bytes} {xs : List α} (ha : Blanks a)
    (hv : ListValue V s xs) : readList item (a ++ s ++ r) = .ok (xs, r) := by
  obtain ⟨vs, hvs, hxs⟩ := hv
  have hopen : ∀ t : Bytes, skipBlanks (a ++ openBracket :: t) = openBracket :: t :=
    fun t => skipBlanks_upTo ha rfl t
  rcases listOf_iff.mp hvs with ⟨rfl, b, hb, rfl⟩ | ⟨b, v, ws, p, hb, hp, rfl, rfl⟩
  · cases hxs
    have hs : a ++ openBracket :: (b ++ [closeBracket]) ++ r =
        a ++ openBracket :: (b ++ closeBracket :: r) := by simp
    have hclose : skipBlanks (b ++ closeBracket :: r) = closeBracket :: r :=
      skipBlanks_upTo hb rfl _
    simp only [readList, hs, hopen, hclose, if_true]
  · cases hxs with
    | @cons _ x _ ys hv hys =>
      have hs : a ++ openBracket :: (b ++ v ++ p) ++ r =
          a ++ openBracket :: (b ++ v ++ (p ++ r)) := by simp
      obtain ⟨d, u, hvalue, hd, hread⟩ := h.first hb hv (hp.stops r)
      simp only [readList, hs, hopen, if_true, hvalue, if_neg hd, hread,
        h.moreElements_complete hp hys]
      rfl

theorem Reads.list (h : item.Reads V) : (Reader.list item).Reads (ListValue V) where
  begins := by
    rintro s xs ⟨vs, hvs, -⟩
    rcases listOf_iff.mp hvs with ⟨-, a, -, rfl⟩ | ⟨a, v, ws, p, -, -, -, rfl⟩
    · exact begins_opener .list _
    · exact begins_opener .list _
  sound := h.readList_sound
  complete := fun ha hv _ => h.readList_complete ha hv

/-! ### Values that may be null -/

lemma Reads.readNullable_sound {r : Reader α} (h : r.Reads V) {s t : Bytes} {x : Option α}
    (hs : readNullable r s = .ok (x, t)) :
    ∃ a v, Blanks a ∧ NullableValue V v x ∧ s = a ++ v ++ t := by
  rw [readNullable] at hs
  split at hs
  · cases hs
  · next c u heq =>
    obtain ⟨a, ha, rfl⟩ := skipBlanks_sound heq
    split at hs
    · next hc =>
      obtain ⟨w, hw, hmap⟩ := ok_of_map hs
      cases hmap
      rw [hc, eq_append_of_word hw]
      exact ⟨a, [0x6E, 0x75, 0x6C, 0x6C], ha, .null, by simp⟩
    · obtain ⟨p, hr, hmap⟩ := ok_of_map hs
      cases hmap
      obtain ⟨b, v, hb, hv, hcons⟩ := h.sound (x := p.1) (t := p.2) hr
      refine ⟨a ++ b, v, blanks_append ha hb, .some hv, ?_⟩
      rw [hcons]
      simp

lemma Reads.readNullable_complete {r : Reader α} (h : r.Reads V)
    (hnull : ∀ {v : Bytes} {x : α}, V v x → v.head? ≠ some 0x6E) {a v t : Bytes} {x : Option α}
    (ha : Blanks a) (hx : NullableValue V v x) (ht : Stops t) :
    readNullable r (a ++ v ++ t) = .ok (x, t) := by
  cases hx with
  | null =>
    have hs : a ++ [0x6E, 0x75, 0x6C, 0x6C] ++ t = a ++ 0x6E :: ([0x75, 0x6C, 0x6C] ++ t) := by
      simp
    have hfirst : skipBlanks (a ++ 0x6E :: ([0x75, 0x6C, 0x6C] ++ t)) =
        0x6E :: ([0x75, 0x6C, 0x6C] ++ t) := skipBlanks_upTo ha rfl _
    simp only [readNullable, hs, hfirst, if_true, word_append, Except.map]
  | some hv =>
    have hread := h.complete blanks_nil hv ht
    rw [List.nil_append] at hread
    have hbegins := h.begins hv
    have hfirst := (hbegins.append t).skipBlanks ha
    have hn := hnull hv
    obtain ⟨c, u, rfl, -⟩ := hbegins
    have hc : c ≠ 0x6E := by simpa using hn
    rw [List.cons_append] at hfirst hread
    simp only [readNullable, List.append_assoc, List.cons_append, hfirst,
      if_neg hc, hread, Except.map]

/-- A value that may be null, if no value of the reader could be taken for it. -/
theorem Reads.nullable {r : Reader α} (h : r.Reads V)
    (hnull : ∀ {v : Bytes} {x : α}, V v x → v.head? ≠ some 0x6E) :
    (Reader.nullable r).Reads (NullableValue V) where
  begins := by
    intro v x hx
    cases hx with
    | null => exact ⟨0x6E, [0x75, 0x6C, 0x6C], rfl, by decide⟩
    | some hv => exact h.begins hv
  sound := h.readNullable_sound
  complete := h.readNullable_complete hnull

end Reader

end TopicFeed.Json
