import TopicFeed.Settings.Format
import TopicFeed.Yaml.Node

/-!
# Settings in YAML

Every scalar is a text as it is written. A number is a plain scalar in digits: decimal without
needless zeros, or in base sixteen, eight or two behind `0x`, `0o`, `0b`. A plain `null` in one of
its spellings means none, and nothing at all is also an empty collection.
-/

namespace TopicFeed.Settings

open Yaml

namespace YamlFormat

/-- The tag of nothing. -/
def nullTag : Bytes := Bytes.ofString "tag:yaml.org,2002:null"

/-- The tag of whole numbers. -/
def intTag : Bytes := Bytes.ofString "tag:yaml.org,2002:int"

/-- The spellings of nothing. -/
def isNull (text : String) : Bool := ["null", "Null", "NULL", "~"].contains text

/-- The node that is meant. -/
def follow (anchors : Anchors) : Node → Taking Node
  | .reference n => do
    match ← get with
    | 0 => failure
    | left + 1 =>
      set left
      match anchors.node? n with
      | some node => return node
      | none => failure
  | node => return node

/-- The number that digits of a base write; there must be some. -/
def digits? (base : Nat) (cs : List Char) : Option Nat :=
  if cs.isEmpty then none
  else cs.foldlM (fun n c => ((hexDigit? c).filter (· < base)).map (base * n + ·)) 0

/-- The number that a text writes. -/
def number? (text : String) : Option Nat :=
  let cs := match text.toList with
    | '+' :: r => r
    | r => r
  match cs with
  | '0' :: 'x' :: r => digits? 16 r
  | '0' :: 'o' :: r => digits? 8 r
  | '0' :: 'b' :: r => digits? 2 r
  | '0' :: _ :: _ => none
  | _ => digits? 10 cs

/-- The scalar is not written at all. -/
def isNothing : Node → Bool
  | .scalar _ .plain "" => true
  | _ => false

/-- A text: any scalar. -/
def text (anchors : Anchors) (v : Node) : Taking String := do
  match ← follow anchors v with
  | .scalar _ _ text => return text
  | _ => failure

/-- A number: a plain scalar, or a literal one that is tagged as such. -/
def natural (anchors : Anchors) (v : Node) : Taking Nat := do
  match ← follow anchors v with
  | .scalar tag style text =>
    let isNumeral := style = .plain || (style = .literal && tag = some intTag)
    if isNumeral then (number? text).elim failure pure else failure
  | _ => failure

/-- A value, or none: a plain scalar that is empty or spells nothing. A tag makes it a value, but
for the tag of nothing, which allows no other spelling. -/
def nullable (anchors : Anchors) (v : Node) : Taking (Option Node) := do
  let node ← follow anchors v
  match node with
  | .scalar tag .plain text =>
    match tag with
    | none => return if text.isEmpty || isNull text then none else some node
    | some t =>
      if t ≠ nullTag then return some node
      else if isNull text then return none
      else failure
  | _ => return some node

/-- A sequence. -/
def list (anchors : Anchors) (v : Node) : Taking (List Node) := do
  match ← follow anchors v with
  | .sequence items => return items
  | node => if isNothing node then return [] else failure

/-- A mapping whose keys are scalars. -/
def pairs (anchors : Anchors) (v : Node) : Taking (List (String × Node)) := do
  match ← follow anchors v with
  | .mapping entries => entries.mapM fun (key, value) => do return (← text anchors key, value)
  | node => if isNothing node then return [] else failure

/-- The values of YAML as settings. -/
def format (anchors : Anchors) : Format Node where
  text := text anchors
  natural := natural anchors
  nullable := nullable anchors
  list := list anchors
  pairs := pairs anchors
  fields := fun _ => pairs anchors

/-- The values that a reference may stand for, for each value of the text. -/
abbrev followLimit : Nat := 100

end YamlFormat

/-- The settings that a YAML text writes. A text without a value leaves all defaults. -/
def ofYaml? (s : String) : Option Settings :=
  (Document.ofText? s).bind fun
    | none => some {}
    | some document =>
      (YamlFormat.format document.anchors).settings? (YamlFormat.followLimit * document.size)
        document.root

end TopicFeed.Settings
