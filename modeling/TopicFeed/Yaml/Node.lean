import TopicFeed.Yaml.Token

/-!
# YAML nodes

The value that a YAML text writes, read from its tokens. A node may be given an anchor, and a
reference stands for the node of an anchor. Anchors are numbered by how many names are known when
they come; a name that comes again gets a number of its own, but does not count as one more name,
so the next new name takes that number over.
-/

namespace TopicFeed.Yaml

/-- A value. A tag is kept where it may matter: on a scalar. -/
inductive Node where
  | reference (number : Nat)
  | scalar (tag : Option Bytes) (style : Style) (text : String)
  | sequence (items : List Node)
  | mapping (entries : List (Node × Node))
  deriving Repr, Inhabited

/-- A scalar that is not written at all. -/
def Node.empty (tag : Option Bytes) : Node := .scalar tag .plain ""

/-- The nodes with anchors: their numbers, and when each of them began. -/
structure Anchors where
  numbers : List (String × Nat) := []
  nodes : List (Nat × Nat × Node) := []
  deriving Repr

/-- The number of a name. -/
def Anchors.number? (a : Anchors) (name : String) : Option Nat :=
  (a.numbers.find? (·.1 == name)).map (·.2)

/-- A name gets its number. -/
def Anchors.declare (a : Anchors) (name : String) : Nat × Anchors :=
  let n := a.numbers.length
  (n, { a with numbers := (name, n) :: a.numbers.filter (·.1 != name) })

/-- The node of a number: of several, the one that began last. -/
def Anchors.node? (a : Anchors) (number : Nat) : Option Node :=
  let candidates := a.nodes.filter (·.1 == number)
  let last := (candidates.map (·.2.1)).foldl max 0
  (candidates.find? (·.2.1 == last)).map (·.2.2)

/-- Reading: the tokens that are left, what tags mean, the anchors so far, and the number of
nodes that have begun. A collection counts twice, for its beginning and its end. -/
structure Reading where
  tokens : List Token
  meanings : List (String × Bytes) := []
  anchors : Anchors := {}
  count : Nat := 0

/-- A step of reading; it may find that the text is no YAML. -/
abbrev Reader := StateT Reading Option

namespace Reader

/-- The token at hand. -/
def peek? : Reader (Option Token) := do return (← get).tokens.head?

/-- The token at hand is one of these, or there is none and that is allowed. -/
def isAt (ts : List Token) : Reader Bool := do return (← peek?).any ts.contains

/-- Over the token at hand. -/
def skip : Reader Unit := modify fun r => { r with tokens := r.tokens.drop 1 }

/-- Over this very token. -/
def expect (t : Token) : Reader Unit := do
  if ← isAt [t] then skip else failure

/-- Over this token, if it is at hand. -/
def accept (t : Token) : Reader Bool := do
  if ← isAt [t] then skip; return true else return false

/-- Notes that a node begins or ends. -/
def tick : Reader Nat := modifyGet fun r => (r.count, { r with count := r.count + 1 })

/-- What a tag means. -/
def meaning (name : TagName) : Reader Bytes := do
  if name.handle.isEmpty then return name.suffix
  match (← get).meanings.find? (·.1 == name.handle) with
  | some (_, lead) => return lead ++ name.suffix
  | none => failure

/-- The anchor and the tag before a node, in either order. -/
def properties : Reader (Option String × Option Bytes) := do
  match ← peek? with
  | some (.anchor name) =>
    skip
    match ← peek? with
    | some (.tag t) => skip; return (some name, some (← meaning t))
    | _ => return (some name, none)
  | some (.tag t) =>
    skip
    match ← peek? with
    | some (.anchor name) => skip; return (some name, some (← meaning t))
    | _ => return (none, some (← meaning t))
  | _ => return (none, none)

/-- The tag that means that there is none. -/
abbrev noTag : Bytes := Bytes.ofString "!"

/-- An empty scalar at this place. -/
def nothing : Reader Node := do
  let _ ← tick
  return .empty none

mutual

/-- A node. Collections of lines stand only where lines count, and a sequence that is not indented
only as the value of a key. -/
def node (more : Nat) (isBlock isLoose : Bool) : Reader Node :=
  match more with
  | 0 => failure
  | more + 1 => do
    match ← peek? with
    | some (.reference name) =>
      skip
      let _ ← tick
      match (← get).anchors.number? name with
      | some n => return .reference n
      | none => failure
    | _ =>
      let (name?, tag) ← properties
      let start ← tick
      let number? ← match name? with
        | none => pure none
        | some name =>
          modifyGet fun r =>
            let (n, anchors) := r.anchors.declare name
            (some n, { r with anchors })
      let content ← content more isBlock isLoose (name?.isSome || tag.isSome) tag
      match number? with
      | none => pure ()
      | some n =>
        modify fun r =>
          { r with anchors := { r.anchors with nodes := (n, start, content) :: r.anchors.nodes } }
      return content

/-- A node behind its anchor and its tag. -/
def content (more : Nat) (isBlock isLoose hasProperties : Bool) (tag : Option Bytes) :
    Reader Node :=
  match more with
  | 0 => failure
  | more + 1 => do
    match ← peek? with
    | some .blockEntry =>
      if isLoose then
        let items ← looseItems more
        let _ ← tick
        return .sequence items
      else if hasProperties then return .empty tag
      else failure
    | some (.scalar text style) =>
      skip
      return .scalar (tag.filter (· ≠ noTag)) style text
    | some .flowSequence =>
      skip
      let items ← flowItems more true
      let _ ← tick
      return .sequence items
    | some .flowMapping =>
      skip
      let entries ← flowEntries more true
      let _ ← tick
      return .mapping entries
    | some .blockSequence =>
      if isBlock then
        skip
        let items ← blockItems more
        let _ ← tick
        return .sequence items
      else if hasProperties then return .empty tag
      else failure
    | some .blockMapping =>
      if isBlock then
        skip
        let entries ← blockEntries more
        let _ ← tick
        return .mapping entries
      else if hasProperties then return .empty tag
      else failure
    | _ => if hasProperties then return .empty tag else failure

/-- The items of a sequence of lines. -/
def blockItems (more : Nat) : Reader (List Node) :=
  match more with
  | 0 => failure
  | more + 1 => do
    if ← accept .blockEnd then return []
    expect .blockEntry
    let item ←
      if ← isAt [.blockEntry, .blockEnd] then nothing else node more true false
    return item :: (← blockItems more)

/-- The items of a sequence that is not indented. It ends where no item follows. -/
def looseItems (more : Nat) : Reader (List Node) :=
  match more with
  | 0 => failure
  | more + 1 => do
    if ← accept .blockEntry then
      let item ←
        if ← isAt [.blockEntry, .key, .value, .blockEnd] then nothing else node more true false
      return item :: (← looseItems more)
    else return []

/-- The entries of a mapping of lines. -/
def blockEntries (more : Nat) : Reader (List (Node × Node)) :=
  match more with
  | 0 => failure
  | more + 1 => do
    if ← accept .blockEnd then return []
    expect .key
    let ends := [Token.key, .value, .blockEnd]
    let key ← if ← isAt ends then nothing else node more true true
    let value ←
      if ← accept .value then
        if ← isAt ends then nothing else node more true true
      else nothing
    return (key, value) :: (← blockEntries more)

/-- The items of a sequence in brackets. A key makes an item a mapping of one entry. -/
def flowItems (more : Nat) (isFirst : Bool) : Reader (List Node) :=
  match more with
  | 0 => failure
  | more + 1 => do
    if ← accept .flowSequenceEnd then return []
    if !isFirst then expect .flowEntry
    if ← accept .flowSequenceEnd then return []
    let item ←
      if ← accept .key then
        let _ ← tick
        let key ←
          if ← isAt [.value, .flowEntry, .flowSequenceEnd] then skip; nothing
          else node more false false
        let value ←
          if ← accept .value then
            if ← isAt [.flowEntry, .flowSequenceEnd] then nothing else node more false false
          else nothing
        let _ ← tick
        pure (Node.mapping [(key, value)])
      else node more false false
    return item :: (← flowItems more false)

/-- The entries of a mapping in braces. -/
def flowEntries (more : Nat) (isFirst : Bool) : Reader (List (Node × Node)) :=
  match more with
  | 0 => failure
  | more + 1 => do
    if ← accept .flowMappingEnd then return []
    if !isFirst then expect .flowEntry
    if ← accept .flowMappingEnd then return []
    let entry ←
      if ← accept .key then
        let key ←
          if ← isAt [.value, .flowEntry, .flowMappingEnd] then nothing
          else node more false false
        let value ←
          if ← accept .value then
            if ← isAt [.flowEntry, .flowMappingEnd] then nothing else node more false false
          else nothing
        pure (key, value)
      else
        let key ← node more false false
        pure (key, ← nothing)
    return entry :: (← flowEntries more false)

end

/-! ### Documents -/

/-- The meanings of handles that need no directive. -/
def usualMeanings : List (String × Bytes) :=
  [("!", noTag), ("!!", Bytes.ofString "tag:yaml.org,2002:")]

/-- The directives before a document. Each stands at most once, and the version is a known one. -/
def directives (known : Bool) (meanings : List (String × Bytes)) :
    List Token → Option (List (String × Bytes) × List Token)
  | .directive (.version major minor) :: rest =>
    if known || major ≠ 1 || (minor ≠ 1 && minor ≠ 2) then none
    else directives true meanings rest
  | .directive (.tag handle lead) :: rest =>
    if meanings.any (·.1 == handle) then none
    else directives known ((handle, lead) :: meanings) rest
  | rest => some (meanings, rest)

/-- The document's node: what stands behind the sign of its beginning may be nothing. -/
def documentNode (more : Nat) : Reader Node := do
  match ← peek? with
  | none | some (.directive _) | some .documentStart | some .documentEnd => nothing
  | some _ => node more true false

/-- A document from its first token on, which may be left out if nothing else precedes it. -/
def document (more : Nat) : Reader Node := do
  match ← peek? with
  | some (.directive _) | some .documentStart =>
    match directives false [] (← get).tokens with
    | none => failure
    | some (meanings, tokens) =>
      modify fun r => { r with tokens, meanings := meanings ++ usualMeanings }
      expect .documentStart
      documentNode more
  | _ => node more true false

end Reader

/-- A document: its node and its anchors, and a measure of its size. -/
structure Document where
  root : Node
  anchors : Anchors
  size : Nat

/-- The one document of a text. A text without any sign holds none. -/
def Document.ofText? (s : String) : Option (Option Document) :=
  (Token.ofText? s).bind fun tokens =>
    if tokens.isEmpty then some none
    else
      (Reader.document (4 * tokens.length + 4) { tokens, meanings := Reader.usualMeanings }).bind
        fun (root, r) =>
          if (r.tokens.dropWhile (· == .documentEnd)).isEmpty then
            some (some ⟨root, r.anchors, r.count⟩)
          else none

end TopicFeed.Yaml
