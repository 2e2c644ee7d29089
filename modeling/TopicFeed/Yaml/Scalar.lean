import TopicFeed.Text.Ascii
import TopicFeed.Yaml.Text

/-!
# YAML scalars

The three ways to write a text: plain, between quotes, and as a block of lines. Each is read
character by character. Blanks and line breaks inside a text are held back until its next character
shows what they mean: a single line break between words is a space, of several the first one does
not count, and blanks beside a line break never do.
-/

namespace TopicFeed.Yaml

/-- How a scalar is written. -/
inductive Style where
  | plain
  | quoted
  | literal
  | folded
  deriving DecidableEq, Repr

/-- What line breaks mean in a text that flows: the first one, and those behind it. -/
def folded (leading trailing : List Char) : List Char :=
  if leading = ['\n'] then if trailing.isEmpty then [' '] else trailing
  else leading ++ trailing

/-- A text in progress, the latest characters first, and what has been held back behind it. -/
structure Gap where
  text : List Char := []
  blanks : List Char := []
  leading : List Char := []
  trailing : List Char := []
  /-- A line break has been held back. -/
  atLine : Bool := false
  /-- Something has been held back. -/
  isOpen : Bool := false

namespace Gap

/-- Holds back a blank. It does not count behind a line break. -/
def blank (g : Gap) (c : Char) : Gap :=
  if g.atLine then { g with isOpen := true } else { g with blanks := c :: g.blanks, isOpen := true }

/-- Holds back a line break. -/
def lineBreak (g : Gap) (c : Char) : Gap :=
  if g.atLine then { g with trailing := c :: g.trailing, isOpen := true }
  else { g with blanks := [], leading := [c], atLine := true, isOpen := true }

/-- What has been held back becomes part of the text. -/
def close (g : Gap) : Gap :=
  let meant := if g.atLine then folded g.leading g.trailing.reverse else g.blanks.reverse
  { text := meant.reverse ++ g.text }

/-- The next character of the text. -/
def push (g : Gap) (c : Char) : Gap :=
  let g := g.close
  { g with text := c :: g.text }

end Gap

/-! ### Plain scalars -/

/-- Reads a plain scalar, which goes on at the given column at least. Inside brackets it also ends
before a bracket and before a comma. -/
def plain (inFlow : Bool) (column : Nat) (g : Gap) (m : Mark) : List Char → Option (Gap × Cursor)
  | [] => some (g, ⟨[], m⟩)
  | c :: r =>
    if isBreak c then plain inFlow column (g.lineBreak c) (m.next c) r
    else if isBlank c then
      if g.atLine && m.column < column && c == '\t' then none
      else plain inFlow column (g.blank c) (m.next c) r
    else if g.isOpen && ((!inFlow && m.column < column) || (m.column == 0 && isBorder (c :: r)) ||
        c == '#') then
      some (g, ⟨c :: r, m⟩)
    else if inFlow && c == ':' && (r.head?.any (among ",?[]\x7b\x7d")) then none
    else if (c == ':' && endsWord r) || (inFlow && among ",[]\x7b\x7d" c) then
      some (g, ⟨c :: r, m⟩)
    else plain inFlow column (g.push c) (m.next c) r

/-! ### Quoted scalars -/

/-- The character that a one-letter escape means. -/
def letterEscape? (c : Char) : Option Char :=
  match c with
  | '0' => some '\x00'
  | 'a' => some '\x07'
  | 'b' => some '\x08'
  | 't' | '\t' => some '\t'
  | 'n' => some '\n'
  | 'v' => some '\x0B'
  | 'f' => some '\x0C'
  | 'r' => some '\r'
  | 'e' => some '\x1B'
  | ' ' | '"' | '/' | '\\' => some c
  | 'N' => some '\u0085'
  | '_' => some '\u00A0'
  | 'L' => some '\u2028'
  | 'P' => some '\u2029'
  | _ => none

/-- The number of hexadecimal digits behind the letter of an escape. -/
def digitCount? (c : Char) : Option Nat :=
  match c with
  | 'x' => some 2
  | 'u' => some 4
  | 'U' => some 8
  | _ => none

/-- The value of a hexadecimal digit. -/
def hexDigit? (c : Char) : Option Nat :=
  if c.toNat < 0x80 then Ascii.hexDigit? c.toNat.toUInt8 else none

/-- Where a quoted scalar stands: between characters, behind a backslash, or inside the digits of
an escape, with the number of those that are missing and the value of those that are read. -/
inductive Escape where
  | none
  | begun
  | digits (missing value : Nat)
  deriving DecidableEq, Repr

/-- Reads a scalar between single quotes. A quote in it is written twice. -/
def singleQuoted (g : Gap) (m : Mark) : List Char → Option (Gap × Cursor)
  | [] => none
  | c :: r =>
    if isBreak c then singleQuoted (g.lineBreak c) (m.next c) r
    else if isBlank c then singleQuoted (g.blank c) (m.next c) r
    else if g.isOpen && m.column == 0 && isBorder (c :: r) then none
    else if c = '\'' then
      match r with
      | '\'' :: r' => singleQuoted (g.push c) ((m.next c).next c) r'
      | _ => some (g.close, ⟨r, m.next c⟩)
    else singleQuoted (g.push c) (m.next c) r

/-- Reads a scalar between double quotes, with escapes. An escaped line break counts for nothing,
and the blanks behind it neither. -/
def doubleQuoted (g : Gap) (e : Escape) (m : Mark) : List Char → Option (Gap × Cursor)
  | [] => none
  | c :: r =>
    match e with
    | .begun =>
      if isBreak c then
        doubleQuoted { g with atLine := true, isOpen := true } .none (m.next c) r
      else match digitCount? c, letterEscape? c with
        | some n, _ => doubleQuoted g (.digits n 0) (m.next c) r
        | _, some meant => doubleQuoted (g.push meant) .none (m.next c) r
        | _, _ => none
    | .digits missing value =>
      match hexDigit? c with
      | none => none
      | some d =>
        let value := value * 16 + d
        if 1 < missing then doubleQuoted g (.digits (missing - 1) value) (m.next c) r
        else if value.isValidChar then
          doubleQuoted (g.push (Char.ofNat value)) .none (m.next c) r
        else none
    | .none =>
      if isBreak c then doubleQuoted (g.lineBreak c) .none (m.next c) r
      else if isBlank c then doubleQuoted (g.blank c) .none (m.next c) r
      else if g.isOpen && m.column == 0 && isBorder (c :: r) then none
      else if c = '"' then some (g.close, ⟨r, m.next c⟩)
      else if c = '\\' then doubleQuoted g.close .begun (m.next c) r
      else doubleQuoted (g.push c) .none (m.next c) r

/-! ### Block scalars -/

/-- What becomes of the line breaks at the end of a block. -/
inductive Chomp where
  | strip
  | clip
  | keep
  deriving DecidableEq, Repr

/-- The signs behind the indicator of a block: what becomes of its end, and how far it is indented
beyond its surroundings, in either order. -/
structure BlockHeader where
  chomp : Chomp := .clip
  increment : Option Nat := none

/-- The sign of what becomes of the end. -/
def chomp? (cur : Cursor) : Option (Chomp × Cursor) :=
  if cur.isAt '+' then some (.keep, cur.next)
  else if cur.isAt '-' then some (.strip, cur.next)
  else none

/-- The sign of the indentation: a digit. -/
def increment? (cur : Cursor) : Option (Nat × Cursor) :=
  match cur.peek? with
  | some c => if c.isDigit then some (c.toNat - '0'.toNat, cur.next) else none
  | none => none

/-- Reads the header of a block to the end of its line. -/
def blockHeader (cur : Cursor) : Option (BlockHeader × Cursor) :=
  let (header, cur) :=
    match chomp? cur with
    | some (chomp, cur) =>
      match increment? cur with
      | some (n, cur) => (({ chomp, increment := some n } : BlockHeader), cur)
      | none => ({ chomp }, cur)
    | none =>
      match increment? cur with
      | some (n, cur) =>
        match chomp? cur with
        | some (chomp, cur) => ({ chomp, increment := some n }, cur)
        | none => ({ increment := some n }, cur)
      | none => ({}, cur)
  if header.increment = some 0 then none else cur.endLine?.map (header, ·)

/-- A block in progress: its text, the latest characters first; the line break at the end of the
last line and the empty lines behind it; its column, zero while that is not known; the widest
margin so far; and whether the last line began with a blank. -/
structure Block where
  text : List Char := []
  leading : List Char := []
  trailing : List Char := []
  column : Nat := 0
  widest : Nat := 0
  wasBlank : Bool := false
  inLine : Bool := false

namespace Block

/-- Begins a line with the given character. In a folded block a line break between two lines that
begin without a blank is a space, or nothing if empty lines follow it. -/
def beginLine (b : Block) (isFolded : Bool) (c : Char) : Block :=
  let joins := isFolded && b.leading = ['\n'] && !b.wasBlank && !isBlank c
  let before := if joins then if b.trailing.isEmpty then [' '] else [] else b.leading
  { b with
    text := c :: (b.trailing ++ before.reverse ++ b.text)
    leading := [], trailing := [], wasBlank := isBlank c, inLine := true }

/-- The whole text of a block. -/
def finish (b : Block) (chomp : Chomp) : List Char :=
  let ending := match chomp with
    | .strip => []
    | .clip => b.leading
    | .keep => b.leading ++ b.trailing.reverse
  b.text.reverse ++ ending

/-- Reads the lines of a block. The first line that is not empty fixes the column, if no sign has
done so; it lies beyond the column `outer` of the surroundings. -/
def run (isFolded : Bool) (outer : Nat) (b : Block) (m : Mark) :
    List Char → Option (Block × Cursor)
  | [] => some (b, ⟨[], m⟩)
  | c :: r =>
    if b.inLine then
      if isBreak c then run isFolded outer { b with leading := [c], inLine := false } (m.next c) r
      else run isFolded outer { b with text := c :: b.text } (m.next c) r
    else
      let inMargin := b.column = 0 || m.column < b.column
      if inMargin && c == ' ' then run isFolded outer b (m.next c) r
      else if inMargin && c == '\t' then none
      else
        let b := { b with widest := max b.widest m.column }
        if isBreak c then run isFolded outer { b with trailing := c :: b.trailing } (m.next c) r
        else
          let b := if b.column = 0 then { b with column := max (max b.widest outer) 1 } else b
          if m.column = b.column then run isFolded outer (b.beginLine isFolded c) (m.next c) r
          else some (b, ⟨c :: r, m⟩)

end Block

/-- Reads a block scalar from behind its indicator. The surroundings are indented by `outer - 1`
columns, or not at all if it is zero. -/
def block (isFolded : Bool) (outer : Nat) (cur : Cursor) : Option (List Char × Cursor) :=
  (blockHeader cur).bind fun (header, cur) =>
    let column := (header.increment.map (· + (outer - 1))).getD 0
    (Block.run isFolded outer { column } cur.mark cur.rest).map fun (b, cur) =>
      (b.finish header.chomp, cur)

end TopicFeed.Yaml
