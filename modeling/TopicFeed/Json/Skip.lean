import TopicFeed.Json.Number
import TopicFeed.Json.String

/-!
# Skipped values

A value that nobody asked for is read with the full grammar and thrown away. The open brackets
around the place of reading form a stack, so the nesting may be as deep as it likes.
-/

namespace TopicFeed.Json

open Ascii

/-- The two kinds of containers. -/
inductive Bracket where
  | list
  | object
  deriving DecidableEq, Repr

/-- The byte that closes a container. -/
def Bracket.close : Bracket → UInt8
  | .list => closeBracket
  | .object => closeBrace

/-- The cause of an end inside a container. -/
def Bracket.atEnd : Bracket → Cause
  | .list => .endInList
  | .object => .endInObject

/-- The cause of a byte that neither goes on nor closes a container. -/
def Bracket.unclosed : Bracket → Cause
  | .list => .noListEnd
  | .object => .noObjectEnd

/-- The colon behind a key. -/
def colonAfterKey (s : Bytes) : Except Fault Bytes :=
  match skipBlanks s with
  | [] => .error (.ahead .endInObject [])
  | c :: t => if c = colon then .ok t else .error (.ahead .noColon (c :: t))

/-- What stands before each value of a container: nothing in a list, a key and a colon in an
object. -/
def Bracket.enter : Bracket → Bytes → Except Fault Bytes
  | .list, s => .ok s
  | .object, s =>
    match skipBlanks s with
    | [] => .error (.ahead .endInObject [])
    | c :: t =>
      if c = quote then
        match string .skipped [] t with
        | .error f => .error f
        | .ok (_, r) => colonAfterKey r
      else .error (.ahead .keyNotString (c :: t))

/-- The word that a byte begins, without that byte, and what it stands for. -/
def wordOf? (c : UInt8) : Option (Bytes × Found) :=
  if c = 0x6E then some ([0x75, 0x6C, 0x6C], .null)
  else if c = 0x74 then some ([0x72, 0x75, 0x65], .boolean true)
  else if c = 0x66 then some ([0x61, 0x6C, 0x73, 0x65], .boolean false)
  else none

/-- The beginning of a skipped value: a whole scalar, or the bracket that opens a container. -/
def opening (s : Bytes) : Except Fault (Option Bracket × Bytes) :=
  match skipBlanks s with
  | [] => .error (.ahead .endInValue [])
  | c :: t =>
    match wordOf? c with
    | some (w, _) => (word w t).map fun r => (none, r)
    | none =>
      if c = minus then (numeral .skipped true t).map fun x => (none, x.2)
      else if isDigit c then (numeral .skipped false (c :: t)).map fun x => (none, x.2)
      else if c = quote then (string .skipped [] t).map fun x => (none, x.2)
      else if c = openBracket then .ok (some .list, t)
      else if c = openBrace then .ok (some .object, t)
      else .error (.ahead .noValue (c :: t))

theorem length_lt_of_skipBlanks {s t : Bytes} {c : UInt8} (h : skipBlanks s = c :: t) :
    t.length < s.length := by
  have := length_skipBlanks_le s
  rw [h, List.length_cons] at this
  omega

theorem length_lt_of_colonAfterKey {s r : Bytes} (h : colonAfterKey s = .ok r) :
    r.length < s.length := by
  unfold colonAfterKey at h
  split at h
  · simp at h
  · next heq =>
    split at h
    · simp only [Except.ok.injEq] at h
      exact h ▸ length_lt_of_skipBlanks heq
    · simp at h

theorem length_le_of_enter {b : Bracket} {s r : Bytes} (h : b.enter s = .ok r) :
    r.length ≤ s.length := by
  unfold Bracket.enter at h
  split at h
  · simp only [Except.ok.injEq] at h
    simp [h]
  · split at h
    · simp at h
    · next heq =>
      have := length_lt_of_skipBlanks heq
      split at h
      · split at h
        · simp at h
        · next hs =>
          have := length_lt_of_string hs
          have := length_lt_of_colonAfterKey h
          omega
      · simp at h

theorem length_lt_of_opening {s r : Bytes} {b : Option Bracket} (h : opening s = .ok (b, r)) :
    r.length < s.length := by
  unfold opening at h
  split at h
  · simp at h
  · next c t heq =>
    have hlt := length_lt_of_skipBlanks heq
    have hle := length_skipBlanks_le s
    rw [heq] at hle
    split at h
    · next w _ _ =>
      obtain ⟨u, hw, hmap⟩ := ok_of_map h
      cases hmap
      have := length_le_of_word hw
      omega
    · split at h
      · obtain ⟨x, hn, hmap⟩ := ok_of_map h
        cases hmap
        have := length_lt_of_numeral (n := x.1) (r := x.2) hn
        omega
      · split at h
        · obtain ⟨x, hn, hmap⟩ := ok_of_map h
          cases hmap
          have := length_lt_of_numeral (n := x.1) (r := x.2) hn
          omega
        · split at h
          · obtain ⟨x, hn, hmap⟩ := ok_of_map h
            cases hmap
            have := length_lt_of_string (w := x.1) (r := x.2) hn
            omega
          · split at h
            · simp only [Except.ok.injEq, Prod.mk.injEq] at h
              exact h.2 ▸ hlt
            · split at h
              · simp only [Except.ok.injEq, Prod.mk.injEq] at h
                exact h.2 ▸ hlt
              · simp at h

mutual

/-- Skips a value inside the given open containers, and then closes them all. -/
def skipValue (stack : List Bracket) (s : Bytes) : Except Fault Bytes :=
  match _hs : opening s with
  | .error f => .error f
  | .ok (none, r) => skipBehind stack r
  | .ok (some b, r) =>
    match _hr : skipBlanks r with
    | [] => .error (.ahead b.atEnd [])
    | c :: t =>
      if c = b.close then skipBehind stack t
      else match _he : b.enter (c :: t) with
        | .error f => .error f
        | .ok u => skipValue (b :: stack) u
termination_by s.length
decreasing_by
  · exact length_lt_of_opening _hs
  · exact Nat.lt_trans (length_lt_of_skipBlanks _hr) (length_lt_of_opening _hs)
  · have h₁ := length_le_of_enter _he
    have h₂ := length_skipBlanks_le r
    rw [_hr] at h₂
    exact Nat.lt_of_le_of_lt (Nat.le_trans h₁ h₂) (length_lt_of_opening _hs)

/-- Reads on behind a value inside the given open containers, until all of them are closed. -/
def skipBehind (stack : List Bracket) (s : Bytes) : Except Fault Bytes :=
  match stack with
  | [] => .ok s
  | b :: stack =>
    match _hs : skipBlanks s with
    | [] => .error (.ahead b.atEnd [])
    | c :: t =>
      if c = comma then
        match _he : b.enter t with
        | .error f => .error f
        | .ok u => skipValue (b :: stack) u
      else if c = b.close then skipBehind stack t
      else .error (.ahead b.unclosed (c :: t))
termination_by s.length
decreasing_by
  · exact Nat.lt_of_le_of_lt (length_le_of_enter _he) (length_lt_of_skipBlanks _hs)
  · exact length_lt_of_skipBlanks _hs

end

mutual

theorem length_lt_of_skipValue {stack : List Bracket} {s r : Bytes}
    (h : skipValue stack s = .ok r) : r.length < s.length := by
  rw [skipValue] at h
  split at h
  · simp at h
  · next hs =>
    have := length_lt_of_opening hs
    have := length_le_of_skipBehind h
    omega
  · next hs =>
    have := length_lt_of_opening hs
    split at h
    · simp at h
    · next hr =>
      have := length_lt_of_skipBlanks hr
      split at h
      · have := length_le_of_skipBehind h
        omega
      · split at h
        · simp at h
        · next he =>
          have h₁ := length_le_of_enter he
          have h₂ := length_lt_of_skipValue h
          rw [List.length_cons] at h₁
          omega
termination_by s.length
decreasing_by
  all_goals simp_all only [List.length_cons]
  all_goals omega

theorem length_le_of_skipBehind {stack : List Bracket} {s r : Bytes}
    (h : skipBehind stack s = .ok r) : r.length ≤ s.length := by
  rw [skipBehind.eq_def] at h
  split at h
  · simp only [Except.ok.injEq] at h
    simp [h]
  · split at h
    · simp at h
    · next hs =>
      have := length_lt_of_skipBlanks hs
      split at h
      · split at h
        · simp at h
        · next he =>
          have := length_le_of_enter he
          have := length_lt_of_skipValue h
          omega
      · split at h
        · have := length_le_of_skipBehind h
          omega
        · simp at h
termination_by s.length

end

/-- Skips one value. -/
def skip (s : Bytes) : Except Fault Bytes := skipValue [] s

end TopicFeed.Json
