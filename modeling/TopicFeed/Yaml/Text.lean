/-!
# YAML text

The characters of a YAML text and places in it. All line breaks are normalised beforehand: a
carriage return, alone or before a line feed, and U+0085 count as a line feed; U+2028 and U+2029
stay what they are.
-/

namespace TopicFeed.Yaml

/-- A character that a YAML text may hold. -/
def isAllowed (c : Char) : Bool :=
  let n := c.toNat
  n == 0x9 || n == 0xA || n == 0xD || (0x20 ≤ n && n ≤ 0x7E) || n == 0x85 ||
    (0xA0 ≤ n && n ≤ 0xFFFD) || 0x10000 ≤ n

/-- The text with its line breaks normalised. -/
def normalize : List Char → List Char
  | '\r' :: '\n' :: r => '\n' :: normalize r
  | '\r' :: r => '\n' :: normalize r
  | '\u0085' :: r => '\n' :: normalize r
  | c :: r => c :: normalize r
  | [] => []

/-- The mark of the byte order, which may stand at the beginning of a line. -/
abbrev orderMark : Char := '\uFEFF'

/-- A line break. -/
def isBreak (c : Char) : Bool := c == '\n' || c == '\u2028' || c == '\u2029'

/-- A space or a tab. -/
def isBlank (c : Char) : Bool := c == ' ' || c == '\t'

/-- One of the characters of the text `chars`. -/
def among (chars : String) (c : Char) : Bool := chars.toList.contains c

/-- A character of names. -/
def isNameChar (c : Char) : Bool := c.isAlphanum || c == '_' || c == '-'

/-- A word ends here: a blank, a line break, or the end of the text. -/
def endsWord : List Char → Bool
  | [] => true
  | c :: _ => isBlank c || isBreak c

/-- A line ends here. -/
def endsLine : List Char → Bool
  | [] => true
  | c :: _ => isBreak c

/-- The sign that begins a document. -/
def beginsDocument (s : List Char) : Bool := "---".toList.isPrefixOf s && endsWord (s.drop 3)

/-- The sign that ends a document. -/
def endsDocument (s : List Char) : Bool := "...".toList.isPrefixOf s && endsWord (s.drop 3)

/-- A sign that stands between documents. -/
def isBorder (s : List Char) : Bool := beginsDocument s || endsDocument s

/-- A place in a text. -/
structure Mark where
  index : Nat := 0
  line : Nat := 0
  column : Nat := 0
  deriving DecidableEq, Repr

/-- The place behind a character. -/
def Mark.next (m : Mark) (c : Char) : Mark :=
  if isBreak c then ⟨m.index + 1, m.line + 1, 0⟩ else ⟨m.index + 1, m.line, m.column + 1⟩

/-- What is left of a text, and its place. -/
structure Cursor where
  rest : List Char
  mark : Mark := {}
  deriving DecidableEq, Repr

namespace Cursor

/-- One character further. -/
def next (cur : Cursor) : Cursor :=
  match cur.rest with
  | [] => cur
  | c :: r => ⟨r, cur.mark.next c⟩

/-- So many characters further. -/
def skip (cur : Cursor) : Nat → Cursor
  | 0 => cur
  | n + 1 => cur.next.skip n

/-- The character at hand. -/
def peek? (cur : Cursor) : Option Char := cur.rest.head?

/-- The character at hand is this one. -/
def isAt (cur : Cursor) (c : Char) : Bool := cur.peek? == some c

/-- The characters of the class, and what is behind them. -/
def spanFrom (p : Char → Bool) (taken : List Char) (m : Mark) : List Char → List Char × Cursor
  | [] => (taken.reverse, ⟨[], m⟩)
  | c :: r => if p c then spanFrom p (c :: taken) (m.next c) r else (taken.reverse, ⟨c :: r, m⟩)

/-- The characters of the class, and what is behind them. -/
def span (cur : Cursor) (p : Char → Bool) : List Char × Cursor :=
  spanFrom p [] cur.mark cur.rest

/-- Behind the characters of the class. -/
def skipWhile (cur : Cursor) (p : Char → Bool) : Cursor := (cur.span p).2

/-- Behind the rest of the line, if nothing but blanks and a comment is left of it. -/
def endLine? (cur : Cursor) : Option Cursor :=
  let cur := cur.skipWhile isBlank
  let cur := if cur.isAt '#' then cur.skipWhile (!isBreak ·) else cur
  if endsLine cur.rest then some cur.next else none

end Cursor

end TopicFeed.Yaml
