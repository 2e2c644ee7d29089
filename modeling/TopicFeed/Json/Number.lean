import TopicFeed.Json.Blank

/-!
# Numbers of an event line

A number is read in two stages. Its *numeral* is the text: sign, whole digits, fraction digits,
exponent. Its *value* is an integer when the numeral has neither fraction nor exponent and fits a
64-bit word, and a double otherwise. The double is made from as many leading digits as fit an
unsigned 64-bit word, scaled by a power of ten; digits that do not fit only move the point.
-/

namespace TopicFeed.Json

open Ascii

/-- A number as it is written. A fraction, like an exponent, has at least one digit. -/
structure Numeral where
  negative : Bool
  whole : Bytes
  fraction : Bytes
  exponent : Option (Bool × Bytes)
  deriving DecidableEq, Repr

/-- The digits before the point. A leading zero stands alone. -/
def wholePart (m : Manner) : Bytes → Except Fault (Bytes × Bytes)
  | [] => .error (.here m.numberEnd [])
  | c :: s =>
    if c = zero then
      if (s.head?.map isDigit).getD false then .error (.ahead .badNumber s) else .ok ([c], s)
    else if isDigit c then .ok (c :: s.takeWhile isDigit, s.dropWhile isDigit)
    else .error (.here .badNumber s)

/-- The digits behind a point, if there is one. -/
def fractionPart (m : Manner) : Bytes → Except Fault (Bytes × Bytes)
  | [] => .ok ([], [])
  | c :: s =>
    if c = dot then
      match s.takeWhile isDigit with
      | [] => .error (.ahead (if s.isEmpty then m.numberEnd else .badNumber) s)
      | d :: ds => .ok (d :: ds, s.dropWhile isDigit)
    else .ok ([], c :: s)

/-- The sign of an exponent, if it has one. -/
def exponentSign : Bytes → Bool × Bytes
  | [] => (false, [])
  | c :: s => if c = minus then (true, s) else if c = plus then (false, s) else (false, c :: s)

/-- The exponent, if there is one: its sign and its digits. -/
def exponentPart (m : Manner) : Bytes → Except Fault (Option (Bool × Bytes) × Bytes)
  | [] => .ok (none, [])
  | c :: s =>
    if c = 0x65 ∨ c = 0x45 then
      match exponentSign s with
      | (_, []) => .error (.here m.numberEnd [])
      | (negative, d :: t) =>
        if isDigit d then
          .ok (some (negative, d :: t.takeWhile isDigit), t.dropWhile isDigit)
        else .error (.here .badNumber t)
    else .ok (none, c :: s)

/-- A numeral, behind its minus sign if it has one. -/
def numeral (m : Manner) (negative : Bool) (s : Bytes) : Except Fault (Numeral × Bytes) := do
  let (whole, s) ← wholePart m s
  let (fraction, s) ← fractionPart m s
  let (exponent, s) ← exponentPart m s
  return (⟨negative, whole, fraction, exponent⟩, s)

/-- A number: an integer of 64 bits, signed or unsigned, or the bits of a double. -/
inductive Number where
  | integer (n : Int)
  | floating (bits : UInt64)
  deriving DecidableEq, Repr

/-- The largest unsigned 64-bit word. -/
abbrev maxWord : Nat := 0xFFFFFFFFFFFFFFFF

/-- The largest signed 32-bit word. -/
abbrev maxExponent : Nat := 0x7FFFFFFF

/-- Reads decimal digits while the number stays at most `limit`: the number, and the digits that
were left. -/
def accumulate (limit : Nat) (n : Nat) : Bytes → Nat × Bytes
  | [] => (n, [])
  | d :: ds =>
    let next := n * 10 + digit d
    if limit < next then (n, d :: ds) else accumulate limit next ds

/-- Divides by powers of ten until the exponent left is at least `-308`. Zero stays zero. -/
def scaleDown (x : Float) (e : Int) : Float :=
  if _h : e < -308 then
    if x == 0.0 then x else scaleDown (x / Float.ofScientific 1 false 308) (e + 308)
  else x / Float.ofScientific 1 false (-e).toNat
termination_by (-e).toNat

/-- The double nearest to `n`, scaled by `10^e` with one multiplication, or with divisions. There
is none when it would exceed every double. -/
def scaled? (n : Nat) (e : Int) : Option Float :=
  let x := Float.ofNat n
  if e < 0 then some (scaleDown x e)
  else if n = 0 then some x
  else if 308 < e then none
  else
    let y := x * Float.ofScientific 1 false e.toNat
    if y.isInf then none else some y

/-- The value of a numeral. A value too large for a double is refused; the result is then the
number of exponent digits behind the one at which this was known. -/
def Numeral.value (n : Numeral) : Except Nat Number :=
  let (lead, moved) := accumulate maxWord 0 n.whole
  let signed (x : Float) : Number := .floating (if n.negative then -x else x).toBits
  if moved.isEmpty && n.fraction.isEmpty && n.exponent.isNone then
    if !n.negative then .ok (.integer lead)
    else if lead = 0 || 0x8000000000000000 < lead then .ok (signed (Float.ofNat lead))
    else .ok (.integer (-lead))
  else
    let (digits, dropped) := accumulate maxWord lead n.fraction
    let point : Int := (moved.length : Int) - ((n.fraction.length : Int) - dropped.length)
    let finish (e : Int) : Except Nat Number :=
      match scaled? digits e with
      | some x => .ok (signed x)
      | none => .error 0
    match n.exponent with
    | none => finish point
    | some (negative, ds) =>
      match accumulate maxExponent 0 ds with
      | (e, []) => finish (if negative then point - e else point + e)
      | (_, _ :: unread) =>
        if digits = 0 || negative then .ok (signed 0.0) else .error unread.length

/-- A number that is kept, behind its minus sign if it has one. -/
def number (negative : Bool) (s : Bytes) : Except Fault (Number × Bytes) :=
  match numeral .kept negative s with
  | .error f => .error f
  | .ok (n, r) =>
    match n.value with
    | .ok x => .ok (x, r)
    | .error unread => .error ⟨.numberRange, r.length + unread⟩

theorem length_lt_of_wholePart {m : Manner} {s w r : Bytes} (h : wholePart m s = .ok (w, r)) :
    r.length < s.length := by
  unfold wholePart at h
  split at h
  · simp at h
  · next c s =>
    have hd := (List.dropWhile_sublist (l := s) isDigit).length_le
    repeat' split at h
    all_goals simp only [Except.ok.injEq, Prod.mk.injEq, reduceCtorEq] at h
    all_goals simp only [← h.2, List.length_cons]; omega

theorem length_le_of_fractionPart {m : Manner} {s w r : Bytes}
    (h : fractionPart m s = .ok (w, r)) : r.length ≤ s.length := by
  unfold fractionPart at h
  split at h
  · simp only [Except.ok.injEq, Prod.mk.injEq] at h
    simp [← h.2]
  · next c s =>
    have hd := (List.dropWhile_sublist (l := s) isDigit).length_le
    repeat' split at h
    all_goals simp only [Except.ok.injEq, Prod.mk.injEq, reduceCtorEq] at h
    all_goals simp only [← h.2, List.length_cons]; omega

theorem length_exponentSign_le (s : Bytes) : (exponentSign s).2.length ≤ s.length := by
  unfold exponentSign
  repeat' split
  all_goals simp

theorem length_le_of_exponentPart {m : Manner} {s r : Bytes} {e : Option (Bool × Bytes)}
    (h : exponentPart m s = .ok (e, r)) : r.length ≤ s.length := by
  unfold exponentPart at h
  split at h
  · simp only [Except.ok.injEq, Prod.mk.injEq] at h
    simp [← h.2]
  · next c s =>
    split at h
    · have hs := length_exponentSign_le s
      split at h
      · simp at h
      · next d t heq =>
        have hd := (List.dropWhile_sublist (l := t) isDigit).length_le
        rw [heq] at hs
        split at h
        · simp only [Except.ok.injEq, Prod.mk.injEq] at h
          simp only [← h.2, List.length_cons] at hs ⊢
          omega
        · simp at h
    · simp only [Except.ok.injEq, Prod.mk.injEq] at h
      simp [← h.2]

theorem length_lt_of_numeral {m : Manner} {b : Bool} {s r : Bytes} {n : Numeral}
    (h : numeral m b s = .ok (n, r)) : r.length < s.length := by
  simp only [numeral, bind, Except.bind, pure, Except.pure] at h
  split at h
  · simp at h
  · next w hw =>
    split at h
    · simp at h
    · next f hf =>
      split at h
      · simp at h
      · next e he =>
        simp only [Except.ok.injEq, Prod.mk.injEq] at h
        have := length_lt_of_wholePart (r := w.2) hw
        have := length_le_of_fractionPart (r := f.2) hf
        have := length_le_of_exponentPart (r := e.2) he
        rw [← h.2]
        omega

theorem length_lt_of_number {b : Bool} {s r : Bytes} {x : Number}
    (h : number b s = .ok (x, r)) : r.length < s.length := by
  unfold number at h
  split at h
  · simp at h
  · next hn =>
    split at h
    · simp only [Except.ok.injEq, Prod.mk.injEq] at h
      exact h.2 ▸ length_lt_of_numeral hn
    · simp at h

end TopicFeed.Json
