import TopicFeed.Text.Utf8
import TopicFeed.Yaml.Scalar

/-!
# YAML tags, anchors and directives

The names that YAML gives to kinds of values, to values, and to beginnings of tags.
-/

namespace TopicFeed.Yaml

/-- A tag as it is written: a handle, whose meaning a directive may give, and what follows it. -/
structure TagName where
  handle : String
  suffix : Bytes
  deriving DecidableEq, Repr

/-- The handle of a tag: an exclamation mark, then perhaps a name and another mark. -/
def handle (cur : Cursor) : Option (String × Cursor) :=
  if cur.isAt '!' then
    let (name, cur) := cur.next.span isNameChar
    if cur.isAt '!' then some (String.ofList ('!' :: name ++ ['!']), cur.next)
    else some (String.ofList ('!' :: name), cur)
  else none

/-- The length of the character that a byte begins. -/
def lengthFromFirst? (b : Nat) : Option Nat :=
  if b < 0x80 then some 1
  else if b < 0xC0 then none
  else if b < 0xE0 then some 2
  else if b < 0xF0 then some 3
  else if b < 0xF8 then some 4
  else none

/-- A character of a tag. Some places allow brackets and commas, too. -/
def isTagChar (hasBrackets : Bool) (c : Char) : Bool :=
  isNameChar c || among ";/?:@&=+$.%!~*'()" c || (hasBrackets && among ",[]" c)

/-- The bytes of a tag, with `%` and two digits for a byte. The bytes of one character stand
together; `missing` of them are still to come. -/
def tagBytes (hasBrackets : Bool) (done : Bytes) (missing : Nat) (m : Mark) :
    List Char → Option (Bytes × Cursor)
  | '%' :: a :: b :: r =>
    match hexDigit? a, hexDigit? b with
    | some high, some low =>
      let byte := 16 * high + low
      let m := ((m.next '%').next a).next b
      if missing = 0 then
        (lengthFromFirst? byte).bind fun n =>
          tagBytes hasBrackets (byte.toUInt8 :: done) (n - 1) m r
      else if 0x80 ≤ byte ∧ byte < 0xC0 then
        tagBytes hasBrackets (byte.toUInt8 :: done) (missing - 1) m r
      else none
    | _, _ => none
  | c :: r =>
    if missing ≠ 0 || c == '%' then none
    else if isTagChar hasBrackets c then
      tagBytes hasBrackets (c.toNat.toUInt8 :: done) 0 (m.next c) r
    else some (done.reverse, ⟨c :: r, m⟩)
  | [] => if missing = 0 then some (done.reverse, ⟨[], m⟩) else none

/-- The bytes of a tag behind those already known; there must be some. -/
def tagFrom (hasBrackets : Bool) (known : Bytes) (isOptional : Bool) (cur : Cursor) :
    Option (Bytes × Cursor) :=
  (tagBytes hasBrackets [] 0 cur.mark cur.rest).bind fun (bytes, cur) =>
    if bytes.isEmpty && !isOptional then none else some (known ++ bytes, cur)

/-- Reads a tag: verbatim between `!<` and `>`, behind a handle, or all of it behind one mark. -/
def tag (inFlow : Bool) (cur : Cursor) : Option (TagName × Cursor) :=
  let named : Option (TagName × Cursor) :=
    if cur.next.isAt '<' then
      (tagFrom true [] false (cur.skip 2)).bind fun (suffix, cur) =>
        if cur.isAt '>' then some (⟨"", suffix⟩, cur.next) else none
    else
      (handle cur).bind fun (handle, cur) =>
        if 1 < handle.length && handle.endsWith "!" then
          (tagFrom false [] false cur).map fun (suffix, cur) => (⟨handle, suffix⟩, cur)
        else
          (tagFrom false ((Bytes.ofString handle).drop 1) true cur).map fun (suffix, cur) =>
            if suffix.isEmpty then (⟨"", Bytes.ofString "!"⟩, cur) else (⟨"!", suffix⟩, cur)
  named.filter fun (_, cur) => endsWord cur.rest || (inFlow && cur.isAt ',')

/-- Reads the name of an anchor, from behind its indicator. -/
def anchor (cur : Cursor) : Option (String × Cursor) :=
  let (name, cur) := cur.span isNameChar
  if !name.isEmpty && (endsWord cur.rest || cur.peek?.any (among "?:,]\x7d%@`")) then
    some (String.ofList name, cur)
  else none

/-- What a directive says: the version of the text, or the meaning of a handle. -/
inductive Directive where
  | version (major minor : Nat)
  | tag (handle : String) (meaning : Bytes)
  deriving DecidableEq, Repr

/-- Up to nine digits. -/
def versionNumber (cur : Cursor) : Option (Nat × Cursor) :=
  let (digits, cur) := cur.span (·.isDigit)
  if 1 ≤ digits.length && digits.length ≤ 9 then
    some (digits.foldl (fun n c => 10 * n + (c.toNat - '0'.toNat)) 0, cur)
  else none

/-- The value of a directive for the version. -/
def versionValue (cur : Cursor) : Option (Directive × Cursor) :=
  (versionNumber (cur.skipWhile isBlank)).bind fun (major, cur) =>
    if cur.isAt '.' then
      (versionNumber cur.next).map fun (minor, cur) => (.version major minor, cur)
    else none

/-- The value of a directive for a handle. -/
def tagValue (cur : Cursor) : Option (Directive × Cursor) :=
  (handle (cur.skipWhile isBlank)).bind fun (handle, cur) =>
    if (handle != "!" && !handle.endsWith "!") || !cur.peek?.any isBlank then none
    else (tagFrom true [] false (cur.skipWhile isBlank)).bind fun (meaning, cur) =>
      if endsWord cur.rest then some (.tag handle meaning, cur) else none

/-- Reads a directive to the end of its line, from behind its indicator. -/
def directive (cur : Cursor) : Option (Directive × Cursor) :=
  let (name, cur) := cur.span isNameChar
  let value : Option (Directive × Cursor) :=
    if !endsWord cur.rest then none
    else if String.ofList name = "YAML" then versionValue cur
    else if String.ofList name = "TAG" then tagValue cur
    else none
  value.bind fun (d, cur) => cur.endLine?.map (d, ·)

end TopicFeed.Yaml
