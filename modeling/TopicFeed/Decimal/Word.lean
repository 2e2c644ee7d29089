import TopicFeed.Text.Ascii

/-!
# Words

A word of 64 bits, written in decimal digits: one digit or more, with a plus sign before them if
one likes. The text is read from the left, and what is wrong first is what is said.
-/

namespace TopicFeed.Decimal

/-- Why a text is no word. -/
inductive WordFault where
  | empty
  | digit
  | tooLarge
  deriving DecidableEq, Repr

/-- The wording of a fault. -/
def WordFault.message : WordFault → String
  | .empty => "cannot parse integer from empty string"
  | .digit => "invalid digit found in string"
  | .tooLarge => "number too large to fit in target type"

/-- The first number that is no word. -/
abbrev wordBound : Nat := 0x10000000000000000

/-- Writes one more digit behind a number. -/
def extend (n : Nat) (c : Char) : Except WordFault Nat :=
  if '0' ≤ c ∧ c ≤ '9' then
    let next := 10 * n + (c.toNat - '0'.toNat)
    if next < wordBound then .ok next else .error .tooLarge
  else .error .digit

/-- The word that the characters of a text write. -/
def wordOfChars : List Char → Except WordFault Nat
  | [] => .error .empty
  | ['+'] => .error .digit
  | '+' :: digits => digits.foldlM extend 0
  | digits => digits.foldlM extend 0

/-- The word that a text writes. -/
def word (s : String) : Except WordFault Nat := wordOfChars s.toList

end TopicFeed.Decimal
