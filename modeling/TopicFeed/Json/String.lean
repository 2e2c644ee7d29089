import TopicFeed.Json.Blank

/-!
# Strings of an event line

Reading a string from behind its opening quote. Escapes of UTF-16 surrogates must come in pairs
in a string that is kept; in one that is skipped any four hexadecimal digits will do.
-/

namespace TopicFeed.Json

open Ascii

/-- Four hexadecimal digits. All four bytes are consumed before they are looked at. -/
def hexCode : Bytes → Except Fault (Nat × Bytes)
  | a :: b :: c :: d :: r =>
    match hexDigit? a, hexDigit? b, hexDigit? c, hexDigit? d with
    | some a, some b, some c, some d => .ok (((a * 16 + b) * 16 + c) * 16 + d, r)
    | _, _, _, _ => .error (.here .badEscape r)
  | _ => .error (.here .endInString [])

/-- The code point of a surrogate pair. -/
@[irreducible] def codePoint (high low : Nat) : Nat :=
  0x10000 + (high - 0xD800) * 0x400 + (low - 0xDC00)

/-- The second half of a surrogate pair, behind the first half `high`: a backslash, `u`, and the
low surrogate. -/
def lowSurrogate (high : Nat) : Bytes → Except Fault (Bytes × Bytes)
  | [] => .error (.here .endInString [])
  | a :: s =>
    if a ≠ backslash then .error (.here .halfSurrogate s)
    else match s with
      | [] => .error (.here .endInString [])
      | u :: s =>
        if u ≠ 0x75 then .error (.here .halfSurrogate s)
        else match hexCode s with
          | .error f => .error f
          | .ok (low, r) =>
            if 0xDC00 ≤ low ∧ low ≤ 0xDFFF then
              .ok (String.utf8EncodeChar (Char.ofNat (codePoint high low)), r)
            else .error (.here .loneSurrogate r)

/-- The escape of a code unit, behind the `u`. -/
def unicodeEscape (m : Manner) (s : Bytes) : Except Fault (Bytes × Bytes) :=
  match hexCode s with
  | .error f => .error f
  | .ok (code, r) =>
    match m with
    | .skipped => .ok ([], r)
    | .kept =>
      if 0xDC00 ≤ code ∧ code ≤ 0xDFFF then .error (.here .loneSurrogate r)
      else if 0xD800 ≤ code ∧ code ≤ 0xDBFF then lowSurrogate code r
      else .ok (String.utf8EncodeChar (Char.ofNat code), r)

/-- The byte that a one-letter escape writes. -/
def letterEscape? (c : UInt8) : Option UInt8 :=
  if c = quote ∨ c = backslash ∨ c = 0x2F then some c
  else if c = 0x62 then some 0x08
  else if c = 0x66 then some 0x0C
  else if c = 0x6E then some 0x0A
  else if c = 0x72 then some 0x0D
  else if c = 0x74 then some 0x09
  else none

/-- An escape, behind its backslash: the bytes it writes, and what is left. -/
def escape (m : Manner) : Bytes → Except Fault (Bytes × Bytes)
  | [] => .error (.here .endInString [])
  | c :: s =>
    if c = 0x75 then unicodeEscape m s
    else match letterEscape? c with
      | some b => .ok ([b], s)
      | none => .error (.here .badEscape s)

theorem length_lt_of_hexCode {s r : Bytes} {n : Nat} (h : hexCode s = .ok (n, r)) :
    r.length < s.length := by
  unfold hexCode at h
  split at h
  · split at h
    · simp only [Except.ok.injEq, Prod.mk.injEq] at h
      simp only [← h.2, List.length_cons]
      omega
    · simp at h
  · simp at h

theorem length_lt_of_lowSurrogate {high : Nat} {s w r : Bytes}
    (h : lowSurrogate high s = .ok (w, r)) : r.length < s.length := by
  unfold lowSurrogate at h
  repeat' split at h
  all_goals first
    | (simp at h; done)
    | (next hx _ =>
        simp only [Except.ok.injEq, Prod.mk.injEq] at h
        have := length_lt_of_hexCode hx
        simp only [← h.2, List.length_cons]
        omega)

theorem length_lt_of_unicodeEscape {m : Manner} {s w r : Bytes}
    (h : unicodeEscape m s = .ok (w, r)) : r.length < s.length := by
  unfold unicodeEscape at h
  split at h
  · simp at h
  · next hx =>
    have hlt := length_lt_of_hexCode hx
    split at h
    · simp only [Except.ok.injEq, Prod.mk.injEq] at h
      exact h.2 ▸ hlt
    · split at h
      · simp at h
      · split at h
        · exact Nat.lt_trans (length_lt_of_lowSurrogate h) hlt
        · simp only [Except.ok.injEq, Prod.mk.injEq] at h
          exact h.2 ▸ hlt

theorem length_lt_of_escape {m : Manner} {s w r : Bytes} (h : escape m s = .ok (w, r)) :
    r.length < s.length := by
  unfold escape at h
  split at h
  · simp at h
  · split at h
    · have := length_lt_of_unicodeEscape h
      simp only [List.length_cons]
      omega
    · split at h
      · simp only [Except.ok.injEq, Prod.mk.injEq] at h
        simp only [← h.2, List.length_cons]
        omega
      · simp at h

/-- What is left when a byte is refused: a string that is kept has consumed it, one that is skipped
has not. -/
def Manner.rest (m : Manner) (c : UInt8) (s : Bytes) : Bytes :=
  match m with
  | .kept => s
  | .skipped => c :: s

/-- A string from behind its opening quote: its bytes, escapes resolved, and what is left behind
its closing quote. The bytes read so far are kept in reverse. -/
def string (m : Manner) (done : Bytes) : Bytes → Except Fault (Bytes × Bytes)
  | [] => .error (.here .endInString [])
  | c :: s =>
    if c = quote then .ok (done.reverse, s)
    else if c = backslash then
      match h : escape m s with
      | .error f => .error f
      | .ok (written, r) =>
        have := length_lt_of_escape h
        string m (written.reverse ++ done) r
    else if c < 0x20 then .error (.here .controlCharacter (m.rest c s))
    else string m (c :: done) s
termination_by s => s.length

theorem length_lt_of_string {m : Manner} {done s w r : Bytes}
    (h : string m done s = .ok (w, r)) : r.length < s.length := by
  fun_induction string m done s with
  | case1 => simp at h
  | case2 =>
    simp only [Except.ok.injEq, Prod.mk.injEq] at h
    simp [← h.2]
  | case3 => simp at h
  | case4 _ _ _ _ _ _ hlt ih =>
    have := ih h
    simp only [List.length_cons]
    omega
  | case5 => simp at h
  | case6 _ _ _ _ _ _ ih =>
    have := ih h
    simp only [List.length_cons]
    omega

end TopicFeed.Json
