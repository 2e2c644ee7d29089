import Mathlib.Data.List.DropRight
import TopicFeed.Json.Record
import TopicFeed.Proofs.Json.Leaves

/-!
How far a step of reading looks.

Two texts fork if they are the same up to a point and have different ends from there on. A step is
prompt if it cannot tell such texts apart as long as it stops before their ends: it then reads the
same from both, or fails on both for the same cause and at the same place. So what a prompt step
comes to is settled by the bytes up to its place and one byte behind it. Steps in a row are prompt
if each of them is; the words, strings and numbers of an event line are looked at here one by one.
-/

namespace TopicFeed.Json

open Ascii

/-! ### Forks -/

/-- What a step takes or comes to. -/
class Reached (α : Type) where
  /-- The number of bytes that are left. -/
  left : α → Nat
  /-- The two are the same but for the ends of the texts that they were read from. -/
  Forks : (u v : Bytes) → α → α → Prop

open Reached

instance : Reached Bytes where
  left := List.length
  Forks u v s t := ∃ p, s = p ++ u ∧ t = p ++ v

instance {α β : Type} [Reached β] : Reached (α × β) where
  left x := left x.2
  Forks u v x y := x.1 = y.1 ∧ Forks u v x.2 y.2

instance : Reached Fault where
  left := Fault.behind
  Forks u v f g := f.cause = g.cause ∧ f.behind + v.length = g.behind + u.length

instance {ε α : Type} [Reached ε] [Reached α] : Reached (Except ε α) where
  left
    | .error e => left e
    | .ok a => left a
  Forks u v
    | .error e, .error f => Forks u v e f
    | .ok a, .ok b => Forks u v a b
    | _, _ => False

/-- A step is prompt at what it takes: it leaves no more than was there, and as long as it leaves
more than the end, another end makes no difference. -/
structure Prompt {α β : Type} [Reached α] [Reached β] (f : α → β) (a : α) : Prop where
  left_le : left (f a) ≤ left a
  forks : ∀ (u v : Bytes) (b : α), Forks u v a b → u.length < left (f a) → Forks u v (f a) (f b)

section Steps

variable {α β γ : Type} [Reached α] [Reached β] [Reached γ]

lemma prompt_of_left {f : α → β} {a : α} (h : left (f a) = 0) : Prompt f a where
  left_le := h ▸ Nat.zero_le _
  forks u v b _ hlt := by omega

lemma Prompt.congr {f g : α → β} {a : α} (h : Prompt g a) (hfg : ∀ a, f a = g a) : Prompt f a := by
  rw [funext hfg]
  exact h

/-- One step behind the other. -/
lemma Prompt.comp {f : α → β} {g : β → γ} {a : α} (hf : Prompt f a) (hg : Prompt g (f a)) :
    Prompt (fun a => g (f a)) a where
  left_le := Nat.le_trans hg.left_le hf.left_le
  forks u v b hab hlt :=
    hg.forks u v (f b) (hf.forks u v b hab (Nat.lt_of_lt_of_le hlt hg.left_le)) hlt

/-- One step behind the other, if the first one does not fail. -/
lemma Prompt.bind {f : α → Except Fault β} {g : β → Except Fault γ} {a : α} (hf : Prompt f a)
    (hg : ∀ b, f a = .ok b → Prompt g b) : Prompt (fun a => (f a).bind g) a := by
  refine hf.comp (g := fun x => x.bind g) ?_
  rcases ha : f a with e | b
  · refine ⟨Nat.le_refl _, fun u v y hy _ => ?_⟩
    rcases y with e' | b
    · exact hy
    · exact hy.elim
  · refine ⟨(hg b ha).left_le, fun u v y hy hlt => ?_⟩
    rcases y with e | b'
    · exact hy.elim
    · exact (hg b ha).forks u v b' hy hlt

lemma Prompt.map {f : α → Except Fault β} {g : β → γ} {a : α} (hf : Prompt f a)
    (hg : ∀ b, Prompt g b) : Prompt (fun a => (f a).map g) a :=
  (hf.bind (g := fun b => .ok (g b)) fun b _ => ⟨(hg b).left_le, (hg b).forks⟩).congr fun a => by
    rcases f a with e | b <;> rfl

/-- A step that goes on from what was read before. -/
lemma Prompt.pair {δ : Type} {g : δ × α → β} {d : δ} {a : α} (h : Prompt (fun a => g (d, a)) a) :
    Prompt g (d, a) where
  left_le := h.left_le
  forks u v b hab hlt := by
    obtain ⟨d', b⟩ := b
    obtain ⟨rfl, hab⟩ := hab
    exact h.forks u v b hab hlt

/-- One step behind the other, which goes on from what the first one read. -/
lemma Prompt.andThen {δ : Type} {f : α → Except Fault (δ × β)} {g : δ × β → Except Fault γ} {a : α}
    (hf : Prompt f a) (hg : ∀ d b, f a = .ok (d, b) → Prompt (fun b => g (d, b)) b) :
    Prompt (fun a => (f a).bind g) a :=
  hf.bind fun x hx => Prompt.pair (hg x.1 x.2 hx)

lemma prompt_ok {δ : Type} (d : δ) (a : α) :
    Prompt (fun a => (.ok (d, a) : Except Fault (δ × α))) a where
  left_le := Nat.le_refl _
  forks _ _ _ hab _ := ⟨rfl, hab⟩

lemma prompt_self (a : α) : Prompt (fun a => a) a where
  left_le := Nat.le_refl _
  forks _ _ _ hab _ := hab

lemma prompt_done (a : α) : Prompt (fun a => (.ok a : Except Fault α)) a where
  left_le := Nat.le_refl _
  forks _ _ _ hab _ := hab

lemma prompt_with {δ : Type} (d : δ) (a : α) : Prompt (fun a => (d, a)) a where
  left_le := Nat.le_refl _
  forks _ _ _ hab _ := ⟨rfl, hab⟩

lemma prompt_first {δ ε : Type} (f : δ → ε) (x : δ × α) : Prompt (fun x => (f x.1, x.2)) x where
  left_le := Nat.le_refl _
  forks _ _ _ hab _ := ⟨congrArg f hab.1, hab.2⟩

lemma prompt_snd {δ : Type} (x : δ × α) : Prompt Prod.snd x where
  left_le := Nat.le_refl _
  forks _ _ _ hab _ := hab.2

end Steps

section Texts

variable {β : Type} [Reached β] {c : UInt8} {s t : Bytes}

/-- Texts that fork behind a byte have it both. -/
lemma forks_cons {u v : Bytes} (h : Forks u v (c :: s) t) (hlt : u.length < s.length + 1) :
    ∃ r, t = c :: r ∧ Forks u v s r := by
  obtain ⟨p, hs, rfl⟩ := h
  cases p with
  | nil =>
    have hlength := congrArg List.length hs
    simp only [List.length_cons, List.nil_append] at hlength
    omega
  | cons d p =>
    obtain ⟨rfl, rfl⟩ := List.cons.inj hs
    exact ⟨p ++ v, rfl, p, rfl, rfl⟩

/-- A step that consumes a byte and goes on behind it. -/
lemma Prompt.cons {f g : Bytes → β} (h : Prompt g s) (hfg : ∀ s, f (c :: s) = g s) :
    Prompt f (c :: s) where
  left_le := by
    rw [hfg]
    exact Nat.le_succ_of_le h.left_le
  forks u v t hst hlt := by
    rw [hfg] at hlt ⊢
    have hshort : u.length < s.length := Nat.lt_of_lt_of_le hlt h.left_le
    obtain ⟨r, rfl, hsr⟩ := forks_cons hst (Nat.lt_succ_of_lt hshort)
    rw [hfg]
    exact h.forks u v r hsr hlt

/-- A step that consumes some bytes and goes on behind them. -/
lemma Prompt.behind {f g : Bytes → β} {p : Bytes} (h : Prompt g s) (hfg : ∀ s, f (p ++ s) = g s) :
    Prompt f (p ++ s) := by
  induction p generalizing f with
  | nil => exact h.congr hfg
  | cons c p ih => exact (ih (f := fun s => f (c :: s)) hfg).cons fun _ => rfl

/-- A step that looks at a byte and goes on before it. -/
lemma Prompt.head {f g : Bytes → β} (h : Prompt g (c :: s)) (hfg : ∀ s, f (c :: s) = g (c :: s)) :
    Prompt f (c :: s) where
  left_le := by
    rw [hfg]
    exact h.left_le
  forks u v t hst hlt := by
    rw [hfg] at hlt ⊢
    have hshort : u.length < (c :: s).length := Nat.lt_of_lt_of_le hlt h.left_le
    obtain ⟨r, rfl, hsr⟩ := forks_cons hst hshort
    rw [hfg]
    exact h.forks u v (c :: r) hst hlt

lemma prompt_here (cause : Cause) (s : Bytes) :
    Prompt (fun s => (.error (.here cause s) : Except Fault β)) s where
  left_le := Nat.le_refl _
  forks u v t hst _ := by
    obtain ⟨p, rfl, rfl⟩ := hst
    refine ⟨rfl, ?_⟩
    simp only [Fault.here, List.length_append]
    omega

/-- A byte that is refused when it is looked at. -/
lemma prompt_ahead {f : Bytes → Except Fault β} (cause : Cause)
    (hf : ∀ s, f (c :: s) = .error (.ahead cause (c :: s))) (s : Bytes) : Prompt f (c :: s) :=
  (prompt_here cause s).cons hf

end Texts

/-! ### Blanks and words -/

lemma prompt_span (p : UInt8 → Bool) (s : Bytes) :
    Prompt (fun s => (s.takeWhile p, s.dropWhile p)) s := by
  induction s with
  | nil => exact prompt_of_left rfl
  | cons c s ih =>
    by_cases hc : p c = true
    · exact (ih.comp (prompt_first (c :: ·) _)).cons fun s => by simp [hc]
    · exact (prompt_with [] (c :: s)).head fun s => by simp [hc]

lemma prompt_skipBlanks (s : Bytes) : Prompt skipBlanks s :=
  (prompt_span isBlank s).comp (prompt_snd _)

/-- A step that skips blanks first, and then looks at the byte behind them. -/
lemma Prompt.atToken {β : Type} [Reached β] {f : Bytes → β} {s : Bytes}
    (hblanks : ∀ s, f s = f (skipBlanks s)) (hend : left (f []) = 0)
    (h : ∀ c t, isBlank c = false → skipBlanks s = c :: t → Prompt f (c :: t)) : Prompt f s := by
  refine ((prompt_skipBlanks s).comp ?_).congr hblanks
  rcases hs : skipBlanks s with _ | ⟨c, t⟩
  · exact prompt_of_left hend
  · exact h c t (isBlank_of_skipBlanks hs) hs

lemma prompt_word (w s : Bytes) : Prompt (word w) s := by
  induction w generalizing s with
  | nil => exact (prompt_done s).congr fun _ => rfl
  | cons b w ih =>
    cases s with
    | nil => exact prompt_of_left rfl
    | cons c s =>
      by_cases hc : c = b
      · exact (ih s).cons fun s => if_pos hc
      · exact (prompt_here .noSuchWord s).cons fun s => if_neg hc

/-! ### Strings -/

lemma prompt_hexCode (s : Bytes) : Prompt hexCode s := by
  match s with
  | [] | [_] | [_, _] | [_, _, _] => exact prompt_of_left rfl
  | a :: b :: c :: d :: r =>
    have hcode : (∃ n, ∀ r, hexCode (a :: b :: c :: d :: r) = .ok (n, r)) ∨
        ∀ r, hexCode (a :: b :: c :: d :: r) = .error (.here .badEscape r) := by
      simp only [hexCode]
      rcases hexDigit? a, hexDigit? b, hexDigit? c, hexDigit? d with
        ⟨_ | w, _ | x, _ | y, _ | z⟩ <;> simp
    rcases hcode with ⟨n, hcode⟩ | hcode
    · exact (prompt_ok n r).behind (p := [a, b, c, d]) hcode
    · exact (prompt_here .badEscape r).behind (p := [a, b, c, d]) hcode

lemma prompt_lowSurrogate (high : Nat) (s : Bytes) : Prompt (lowSurrogate high) s := by
  match s with
  | [] => exact prompt_of_left rfl
  | a :: s =>
    by_cases ha : a = backslash
    · match s with
      | [] => exact prompt_of_left (by simp [lowSurrogate, ha, left, Fault.here])
      | b :: s =>
        by_cases hb : b = 0x75
        · have hpair : ∀ s, lowSurrogate high ([a, b] ++ s) = (hexCode s).bind fun x =>
              (if 0xDC00 ≤ x.1 ∧ x.1 ≤ 0xDFFF then
                .ok (String.utf8EncodeChar (Char.ofNat (codePoint high x.1)), x.2)
              else .error (.here .loneSurrogate x.2) : Except Fault (Bytes × Bytes)) := by
            intro s
            simp only [lowSurrogate, List.cons_append, List.nil_append, ha, hb, ne_eq,
              not_true_eq_false, if_false]
            rcases hexCode s with f | ⟨low, r⟩ <;> rfl
          refine ((prompt_hexCode s).andThen fun low r _ => ?_).behind (p := [a, b]) hpair
          by_cases hlow : 0xDC00 ≤ low ∧ low ≤ 0xDFFF
          · exact (prompt_ok (String.utf8EncodeChar (Char.ofNat (codePoint high low))) r).congr
              fun _ => if_pos hlow
          · exact (prompt_here .loneSurrogate r).congr fun _ => if_neg hlow
        · exact (prompt_here .halfSurrogate s).behind (p := [a, b]) fun s => by
            simp [lowSurrogate, ha, hb]
    · exact (prompt_here .halfSurrogate s).cons fun s => by simp [lowSurrogate, ha]

lemma prompt_unicodeEscape (m : Manner) (s : Bytes) : Prompt (unicodeEscape m) s := by
  cases m with
  | skipped =>
    have hcode : ∀ s, unicodeEscape .skipped s = (hexCode s).bind fun x => .ok ([], x.2) := by
      intro s
      rw [unicodeEscape]
      rcases hexCode s with f | x <;> rfl
    exact ((prompt_hexCode s).andThen fun _ r _ => prompt_ok [] r).congr hcode
  | kept =>
    have hcode : ∀ s, unicodeEscape .kept s = (hexCode s).bind fun x =>
        (if 0xDC00 ≤ x.1 ∧ x.1 ≤ 0xDFFF then .error (.here .loneSurrogate x.2)
        else if 0xD800 ≤ x.1 ∧ x.1 ≤ 0xDBFF then lowSurrogate x.1 x.2
        else .ok (String.utf8EncodeChar (Char.ofNat x.1), x.2) : Except Fault (Bytes × Bytes)) := by
      intro s
      rw [unicodeEscape]
      rcases hexCode s with f | x <;> rfl
    refine ((prompt_hexCode s).andThen fun code r _ => ?_).congr hcode
    by_cases hlow : 0xDC00 ≤ code ∧ code ≤ 0xDFFF
    · exact (prompt_here .loneSurrogate r).congr fun _ => if_pos hlow
    · by_cases hhigh : 0xD800 ≤ code ∧ code ≤ 0xDBFF
      · exact (prompt_lowSurrogate code r).congr fun _ => (if_neg hlow).trans (if_pos hhigh)
      · exact (prompt_ok (String.utf8EncodeChar (Char.ofNat code)) r).congr
          fun _ => (if_neg hlow).trans (if_neg hhigh)

lemma prompt_escape (m : Manner) (s : Bytes) : Prompt (escape m) s := by
  cases s with
  | nil => exact prompt_of_left rfl
  | cons c s =>
    by_cases hc : c = 0x75
    · exact (prompt_unicodeEscape m s).cons fun s => if_pos hc
    · rcases hletter : letterEscape? c with _ | b
      · exact (prompt_here .badEscape s).cons fun s => by simp [escape, hc, hletter]
      · exact (prompt_ok [b] s).cons fun s => by simp [escape, hc, hletter]

lemma string_backslash (m : Manner) (done s : Bytes) : string m done (backslash :: s) =
    (escape m s).bind fun x => string m (x.1.reverse ++ done) x.2 := by
  rcases he : escape m s with f | ⟨w, r⟩
  · rw [string, if_neg (by decide), if_pos rfl]
    split
    · next h =>
      rw [he] at h
      cases h
      rfl
    · next h =>
      rw [he] at h
      cases h
  · exact string_escape he done

/-- A string, byte by byte. -/
theorem prompt_string (m : Manner) (done s : Bytes) : Prompt (string m done) s := by
  fun_induction string m done s with
  | case1 done =>
    have hend : string m done [] = .error (.here .endInString []) := by rw [string]
    exact prompt_of_left (congrArg left hend)
  | case2 done s => exact (prompt_ok done.reverse s).cons fun s => string_quote m done s
  | case3 done s f he =>
    refine Prompt.cons ?_ (string_backslash m done)
    refine (prompt_escape m s).andThen fun w r h => ?_
    rw [he] at h
    cases h
  | case4 done s w r he _ _ ih =>
    refine Prompt.cons ?_ (string_backslash m done)
    refine (prompt_escape m s).andThen fun w' r' h => ?_
    rw [he] at h
    cases h
    exact ih
  | case5 done c s hq hb hc =>
    have hcontrol : ∀ s, string m done (c :: s) =
        .error (.here .controlCharacter (m.rest c s)) := by
      intro s
      rw [string, if_neg hq, if_neg hb, if_pos hc]
    cases m with
    | kept => exact (prompt_here .controlCharacter s).cons hcontrol
    | skipped => exact (prompt_here .controlCharacter (c :: s)).head hcontrol
  | case6 done c s hq hb hc ih =>
    exact ih.cons fun s => string_plain m hq hb (UInt8.not_lt.mp hc) done s

/-! ### Numbers -/

lemma prompt_digits (d : UInt8) (s : Bytes) : Prompt (fun s =>
    (.ok (d :: s.takeWhile isDigit, s.dropWhile isDigit) : Except Fault (Bytes × Bytes))) s :=
  ((prompt_span isDigit s).comp (prompt_first (d :: ·) _)).comp (prompt_done _)

lemma prompt_wholePart (m : Manner) (s : Bytes) : Prompt (wholePart m) s := by
  match s with
  | [] => exact prompt_of_left rfl
  | c :: s =>
    by_cases hzero : c = zero
    · match s with
      | [] => exact prompt_of_left (by simp [wholePart, hzero]; rfl)
      | d :: s =>
        by_cases hd : isDigit d = true
        · exact (prompt_here .badNumber s).behind (p := [c, d]) fun s => by
            simp [wholePart, hzero, hd]
            rfl
        · refine Prompt.cons (g := fun s => wholePart m (c :: s)) ?_ fun _ => rfl
          exact (prompt_ok [c] (d :: s)).head fun s => by simp [wholePart, hzero, hd]
    · by_cases hc : isDigit c = true
      · exact (prompt_digits c s).cons fun s => by simp [wholePart, hzero, hc]
      · exact (prompt_here .badNumber s).cons fun s => by simp [wholePart, hzero, hc]

lemma prompt_fractionPart (m : Manner) (s : Bytes) : Prompt (fractionPart m) s := by
  match s with
  | [] => exact prompt_of_left rfl
  | c :: s =>
    by_cases hdot : c = dot
    · match s with
      | [] => exact prompt_of_left (by simp [fractionPart, hdot]; rfl)
      | d :: s =>
        by_cases hd : isDigit d = true
        · exact (prompt_digits d s).behind (p := [c, d]) fun s => by
            simp [fractionPart, hdot, hd]
        · exact (prompt_here .badNumber s).behind (p := [c, d]) fun s => by
            simp [fractionPart, hdot, hd]
            rfl
    · exact (prompt_ok [] (c :: s)).head fun s => by simp [fractionPart, hdot]

lemma prompt_exponentSign (s : Bytes) : Prompt exponentSign s := by
  cases s with
  | nil => exact prompt_of_left rfl
  | cons c s =>
    by_cases hminus : c = minus
    · exact (prompt_with true s).cons fun s => by simp [exponentSign, hminus]
    · by_cases hplus : c = plus
      · exact (prompt_with false s).cons fun s => (if_neg hminus).trans (if_pos hplus)
      · exact (prompt_with false (c :: s)).head fun s => by simp [exponentSign, hminus, hplus]

/-- The digits of an exponent behind its sign. -/
def exponentDigits (m : Manner) (negative : Bool) : Bytes → Except Fault ((Bool × Bytes) × Bytes)
  | [] => .error (.here m.numberEnd [])
  | d :: s =>
    if isDigit d then .ok ((negative, d :: s.takeWhile isDigit), s.dropWhile isDigit)
    else .error (.here .badNumber s)

lemma prompt_exponentDigits (m : Manner) (negative : Bool) (s : Bytes) :
    Prompt (exponentDigits m negative) s := by
  cases s with
  | nil => exact prompt_of_left rfl
  | cons d s =>
    by_cases hd : isDigit d = true
    · refine Prompt.cons (((prompt_digits d s).map (prompt_first (fun ds => (negative, ds)))))
        fun s => ?_
      simp [exponentDigits, hd]
      rfl
    · exact (prompt_here .badNumber s).cons fun s => by simp [exponentDigits, hd]

/-- An exponent, behind its mark. -/
lemma exponentPart_mark (m : Manner) {c : UInt8} (hc : c = 0x65 ∨ c = 0x45) (s : Bytes) :
    exponentPart m (c :: s) =
      (exponentDigits m (exponentSign s).1 (exponentSign s).2).map fun x => (some x.1, x.2) := by
  rw [exponentPart, if_pos hc]
  rcases exponentSign s with ⟨negative, _ | ⟨d, t⟩⟩
  · rfl
  · dsimp only [exponentDigits]
    split <;> rfl

lemma prompt_exponentPart (m : Manner) (s : Bytes) : Prompt (exponentPart m) s := by
  cases s with
  | nil => exact prompt_of_left rfl
  | cons c s =>
    by_cases hc : c = 0x65 ∨ c = 0x45
    · refine Prompt.cons ?_ (exponentPart_mark m hc)
      exact ((prompt_exponentSign s).comp
        (g := fun x => exponentDigits m x.1 x.2) (prompt_exponentDigits m _ _).pair).map
        (prompt_first some)
    · exact (prompt_ok none (c :: s)).head fun s => by simp [exponentPart, hc]

lemma prompt_numeral (m : Manner) (negative : Bool) (s : Bytes) :
    Prompt (numeral m negative) s := by
  have hparts : ∀ s, numeral m negative s = (wholePart m s).bind fun w =>
      (fractionPart m w.2).bind fun f => (exponentPart m f.2).bind fun e =>
        .ok (⟨negative, w.1, f.1, e.1⟩, e.2) := fun _ => rfl
  refine ((prompt_wholePart m s).andThen fun whole s _ => ?_).congr hparts
  dsimp only
  refine (prompt_fractionPart m s).andThen (γ := Numeral × Bytes) fun fraction s _ => ?_
  dsimp only
  refine (prompt_exponentPart m s).andThen (γ := Numeral × Bytes) fun exponent s _ => ?_
  exact prompt_ok (⟨negative, whole, fraction, exponent⟩ : Numeral) s

/-! ### Exponents that are too large

A number is out of range as soon as its exponent is, so the rest of its digits is not looked at. The
digits are read here as one goes along, up to the one that is too much.
-/

/-- Reads digits while the number stays at most `limit`: the number, and what is left behind its
last digit; or nothing, and what is left behind the digit that is too much. -/
def upTo (limit n : Nat) : Bytes → Option Nat × Bytes
  | [] => (some n, [])
  | d :: s =>
    if isDigit d then
      if limit < n * 10 + digit d then (none, s) else upTo limit (n * 10 + digit d) s
    else (some n, d :: s)

lemma prompt_upTo (limit n : Nat) (s : Bytes) : Prompt (upTo limit n) s := by
  induction s generalizing n with
  | nil => exact prompt_of_left rfl
  | cons d s ih =>
    by_cases hd : isDigit d = true
    · by_cases hn : limit < n * 10 + digit d
      · exact (prompt_with none s).cons fun s => by simp [upTo, hd, hn]
      · exact (ih (n * 10 + digit d)).cons fun s => by simp [upTo, hd, hn]
    · exact (prompt_with (some n) (d :: s)).head fun s => by simp [upTo, hd]

/-- Reading along and reading what was taken first come to the same. -/
lemma upTo_eq (limit n : Nat) (s : Bytes) : upTo limit n s =
    match accumulate limit n (s.takeWhile isDigit) with
    | (e, []) => (some e, s.dropWhile isDigit)
    | (_, _ :: unread) => (none, unread ++ s.dropWhile isDigit) := by
  induction s generalizing n with
  | nil => rfl
  | cons d s ih =>
    by_cases hd : isDigit d = true
    · rw [List.takeWhile_cons_of_pos hd, List.dropWhile_cons_of_pos hd, upTo, if_pos hd, accumulate]
      split
      · exact congrArg (none, ·) List.takeWhile_append_dropWhile.symm
      · exact ih _
    · rw [List.takeWhile_cons_of_neg hd, List.dropWhile_cons_of_neg hd, upTo, if_neg hd]
      rfl

lemma accumulate_suffix (limit n : Nat) (ds : Bytes) : (accumulate limit n ds).2 <:+ ds := by
  induction ds generalizing n with
  | nil => exact List.suffix_rfl
  | cons d ds ih =>
    rw [accumulate]
    split
    · exact List.suffix_rfl
    · exact (ih _).trans (List.suffix_cons d ds)

namespace Numeral

/-- The value with an exponent that is not too large, unless it is beyond every double. -/
def scaledBy? (n : Numeral) (negative : Bool) (e : Nat) : Option Number :=
  let (lead, moved) := accumulate maxWord 0 n.whole
  let (digits, dropped) := accumulate maxWord lead n.fraction
  let point : Int := (moved.length : Int) - ((n.fraction.length : Int) - dropped.length)
  (scaled? digits (if negative then point - e else point + e)).map fun x =>
    .floating (if n.negative then -x else x).toBits

/-- The value with an exponent that is too large, unless it is beyond every double. -/
def vanishing? (n : Numeral) (negative : Bool) : Option Number :=
  let lead := (accumulate maxWord 0 n.whole).1
  let digits := (accumulate maxWord lead n.fraction).1
  if digits = 0 || negative then some (.floating (if n.negative then -0.0 else 0.0 : Float).toBits)
  else none

lemma value_exponent (n : Numeral) (negative : Bool) (ds : Bytes) :
    { n with exponent := some (negative, ds) }.value =
      match accumulate maxExponent 0 ds with
      | (e, []) => (n.scaledBy? negative e).elim (.error 0) .ok
      | (_, _ :: unread) => (n.vanishing? negative).elim (.error unread.length) .ok := by
  simp only [value, scaledBy?, vanishing?, Option.isNone_some, Bool.and_false, Bool.false_eq_true,
    if_false]
  rcases accumulate maxExponent 0 ds with ⟨e, _ | ⟨d, unread⟩⟩
  · dsimp only
    split <;> simp_all
  · dsimp only
    split <;> rfl

lemma value_wholly {n : Numeral} (h : n.exponent = none) {unread : Nat}
    (hvalue : n.value = .error unread) : unread = 0 := by
  simp only [value, h] at hvalue
  split at hvalue
  · split at hvalue
    · cases hvalue
    · split at hvalue <;> cases hvalue
  · split at hvalue <;> cases hvalue
    rfl

/-- The value of a numeral, with what is left behind it. -/
def readAt (n : Numeral) (r : Bytes) : Except Fault (Number × Bytes) :=
  match n.value with
  | .ok x => .ok (x, r)
  | .error unread => .error ⟨.numberRange, r.length + unread⟩

lemma prompt_readAt {n : Numeral} (h : ∀ unread, n.value = .error unread → unread = 0) (r : Bytes) :
    Prompt n.readAt r := by
  rcases hvalue : n.value with unread | x
  · obtain rfl := h unread hvalue
    exact (prompt_here .numberRange r).congr fun r => by
      rw [readAt, hvalue]
      rfl
  · exact (prompt_ok x r).congr fun r => by rw [readAt, hvalue]

/-- The value of a numeral whose exponent has been read along, up to its end or to the digit that is
too much. -/
def behindExponent (n : Numeral) (negative : Bool) :
    Option Nat × Bytes → Except Fault (Number × Bytes)
  | (some e, r) =>
    (n.scaledBy? negative e).elim (.error (.here .numberRange r)) fun x => .ok (x, r)
  | (none, r) =>
    (n.vanishing? negative).elim (.error (.here .numberRange r)) fun x =>
      .ok (x, r.dropWhile isDigit)

lemma prompt_behindExponent (n : Numeral) (negative : Bool) (x : Option Nat × Bytes) :
    Prompt (n.behindExponent negative) x := by
  rcases x with ⟨_ | e, r⟩
  · refine Prompt.pair ?_
    rcases hvalue : n.vanishing? negative with _ | x
    · exact (prompt_here .numberRange r).congr fun r => by simp [behindExponent, hvalue]
    · refine (((prompt_span isDigit r).comp (prompt_snd _)).comp (prompt_ok x _)).congr fun r => ?_
      simp [behindExponent, hvalue]
  · refine Prompt.pair ?_
    rcases hvalue : n.scaledBy? negative e with _ | x
    · exact (prompt_here .numberRange r).congr fun r => by simp [behindExponent, hvalue]
    · exact (prompt_ok x r).congr fun r => by simp [behindExponent, hvalue]

lemma readAt_exponent (n : Numeral) (negative : Bool) {d : UInt8} (hd : isDigit d = true)
    (s : Bytes) :
    { n with exponent := some (negative, d :: s.takeWhile isDigit) }.readAt (s.dropWhile isDigit) =
      n.behindExponent negative (upTo maxExponent 0 (d :: s)) := by
  rw [readAt, value_exponent, upTo_eq, List.takeWhile_cons_of_pos hd, List.dropWhile_cons_of_pos hd]
  have hsuffix := accumulate_suffix maxExponent 0 (d :: s.takeWhile isDigit)
  generalize accumulate maxExponent 0 (d :: s.takeWhile isDigit) = x at hsuffix
  obtain ⟨e, _ | ⟨b, unread⟩⟩ := x
  · dsimp only [behindExponent]
    rcases n.scaledBy? negative e with _ | x <;> rfl
  · have hdigits : ∀ b ∈ unread, isDigit b = true := fun b hb =>
      (digits_cons hd (takeWhile_digits s)).2 b (hsuffix.subset (List.mem_cons_of_mem _ hb))
    have hdrop : (unread ++ s.dropWhile isDigit).dropWhile isDigit = s.dropWhile isDigit := by
      rw [List.dropWhile_append_of_pos hdigits, List.dropWhile_idempotent]
    dsimp only [behindExponent]
    rcases n.vanishing? negative with _ | x
    · simp [Fault.here, Nat.add_comm]
    · simp [hdrop]

/-- The value of a numeral to which the exponent is still to be read. -/
def withExponent (n : Numeral) (s : Bytes) : Except Fault (Number × Bytes) :=
  (exponentPart .kept s).bind fun (e, r) => { n with exponent := e }.readAt r

lemma prompt_exponentValue (n : Numeral) (negative : Bool) (s : Bytes) : Prompt (fun s =>
    (exponentDigits .kept negative s).bind fun (e, r) => { n with exponent := some e }.readAt r)
    s := by
  match s with
  | [] => exact prompt_of_left rfl
  | d :: s =>
    by_cases hd : isDigit d = true
    · refine Prompt.head ((prompt_upTo maxExponent 0 (d :: s)).comp
        (n.prompt_behindExponent negative _)) fun s => ?_
      rw [← readAt_exponent n negative hd, exponentDigits, if_pos hd]
      rfl
    · refine (prompt_here .badNumber s).cons fun s => ?_
      rw [exponentDigits, if_neg hd]
      rfl

lemma prompt_withExponent {n : Numeral} (hn : n.exponent = none) (s : Bytes) :
    Prompt n.withExponent s := by
  have hwhole := prompt_readAt (n := n) fun unread => n.value_wholly hn
  have hsame : { n with exponent := none } = n := by rw [← hn]
  match s with
  | [] =>
    have hend : n.withExponent [] = n.readAt [] := congrArg (readAt · []) hsame
    exact prompt_of_left (hend ▸ Nat.le_zero.mp (hwhole []).left_le)
  | c :: s =>
    by_cases hc : c = 0x65 ∨ c = 0x45
    · refine Prompt.cons ((prompt_exponentSign s).comp (g := fun x =>
        (exponentDigits .kept x.1 x.2).bind fun (e, r) => { n with exponent := some e }.readAt r)
        (n.prompt_exponentValue _ _).pair) fun s => ?_
      rw [withExponent, exponentPart_mark .kept hc]
      rcases exponentDigits .kept (exponentSign s).1 (exponentSign s).2 with f | x <;> rfl
    · refine (hwhole (c :: s)).head fun s => ?_
      rw [withExponent, exponentPart, if_neg hc]
      exact congrArg (readAt · (c :: s)) hsame

end Numeral

/-- **A number is read without looking ahead,** even where its exponent is too large. -/
theorem prompt_number (negative : Bool) (s : Bytes) : Prompt (number negative) s := by
  have hparts : ∀ s, number negative s = (wholePart .kept s).bind fun w =>
      (fractionPart .kept w.2).bind fun f =>
        (⟨negative, w.1, f.1, none⟩ : Numeral).withExponent f.2 := by
    intro s
    rw [number, numeral]
    rcases wholePart .kept s with f | ⟨whole, s⟩
    · rfl
    · rcases hfraction : fractionPart .kept s with f | ⟨fraction, s⟩
      · simp [bind, Except.bind, hfraction]
      · rcases hexponent : exponentPart .kept s with f | ⟨exponent, s⟩
        · simp [bind, Except.bind, hfraction, hexponent, Numeral.withExponent]
        · simp only [bind, Except.bind, pure, Except.pure, hfraction, hexponent,
            Numeral.withExponent]
          rfl
  refine ((prompt_wholePart .kept s).andThen fun whole s _ => ?_).congr hparts
  dsimp only
  refine (prompt_fractionPart .kept s).andThen (γ := Number × Bytes) fun fraction s _ => ?_
  exact Numeral.prompt_withExponent (n := ⟨negative, whole, fraction, none⟩) rfl s

end TopicFeed.Json
