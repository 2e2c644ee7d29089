import TopicFeed.Text.Utf8
import TopicFeed.Url.Percent
import TopicFeed.Url.Punycode

/-!
# Domain names

A domain name in its ASCII form. Percent-encoding is resolved first, letters are taken in lower
case, and a label with other characters than ASCII is written in Punycode. Lower case is known
here for ASCII, Latin, Greek, Cyrillic and Armenian letters and for the full-width forms; other
characters are taken as they are. The full tables of international names are not here: no other
compatible form is resolved, and an accent that stands alone is not joined to its letter.
-/

namespace TopicFeed.Url.Domain

/-- The small letter of a capital letter, by the blocks in which capitals stand. -/
def lower (c : Char) : Char :=
  let n := c.toNat
  let shift (by_ : Nat) : Char := Char.ofNat (n + by_)
  if 0x41 ≤ n && n ≤ 0x5A then shift 0x20
  else if 0xC0 ≤ n && n ≤ 0xDE && n != 0xD7 then shift 0x20
  else if 0x100 ≤ n && n ≤ 0x137 && n != 0x130 && n % 2 == 0 then shift 1
  else if 0x139 ≤ n && n ≤ 0x148 && n % 2 == 1 then shift 1
  else if 0x14A ≤ n && n ≤ 0x177 && n % 2 == 0 then shift 1
  else if 0x391 ≤ n && n ≤ 0x3AB && n != 0x3A2 then shift 0x20
  else if 0x410 ≤ n && n ≤ 0x42F then shift 0x20
  else if 0x400 ≤ n && n ≤ 0x40F then shift 0x50
  else if 0x460 ≤ n && n ≤ 0x481 && n % 2 == 0 then shift 1
  else if 0x531 ≤ n && n ≤ 0x556 then shift 0x30
  else if 0x1E00 ≤ n && n ≤ 0x1E95 && n % 2 == 0 then shift 1
  else c

/-- A character in the form in which names are compared; invisible ones vanish. -/
def fold (c : Char) : List Char :=
  let n := c.toNat
  if n = 0xAD || n = 0x200B || n = 0x2060 || n = 0xFEFF then []
  else if n = 0x130 then ['i', '\u0307']
  else if n = 0x1E9E then ['s', 's']
  else if n = 0x3002 || n = 0xFF0E || n = 0xFF61 then ['.']
  else if 0xFF01 ≤ n && n ≤ 0xFF5E then [lower (Char.ofNat (n - 0xFEE0))]
  else [lower c]

/-- A character that no domain name holds: controls, joiners, and signs of URLs. -/
def isForbidden (c : Char) : Bool :=
  c ≤ ' ' || ('\x7F' ≤ c && c ≤ '\u009F') || c == '\u200C' || c == '\u200D' ||
    "%#/:<>?@[\\]^|".toList.contains c

/-- The character is ASCII. -/
def isAscii (c : Char) : Bool := c.toNat < 0x80

/-- The mark of a label in Punycode. -/
abbrev mark : List Char := "xn--".toList

/-- A label in ASCII. One that has the mark already must be the written form of some label. -/
def label? (label : List Char) : Option (List Char) :=
  if label.any isForbidden then none
  else if !label.all isAscii then some (mark ++ Punycode.encode label)
  else match mark.isPrefixOf? label with
    | none => some label
    | some written =>
      (Punycode.decode? written).bind fun meant =>
        if !meant.all isAscii && !meant.any isForbidden && meant.flatMap fold == meant &&
            Punycode.encode meant == written then some label
        else none

/-- The labels of a name: the pieces between its dots. -/
def labels : List Char → List (List Char)
  | [] => [[]]
  | c :: r =>
    if c = '.' then [] :: labels r
    else match labels r with
      | [] => [[c]]
      | label :: rest => (c :: label) :: rest

/-- The ASCII form of a domain name. -/
def ascii? (s : List Char) : Option (List Char) :=
  (Utf8.decode? (Percent.decode (Bytes.ofString (String.ofList s)))).bind fun name =>
    ((labels (name.toList.flatMap fold)).mapM label?).map (List.intercalate ['.'])

end TopicFeed.Url.Domain
