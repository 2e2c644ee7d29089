import TopicFeed.Yaml.Tag

/-!
# YAML tokens

A YAML text as signs and scalars. Indentation becomes signs of its own: a collection of lines
begins where a line is indented further than those around it, and ends where one is indented less.
A key that is not announced by a question mark is known for a key only when its colon comes; until
then the place before it is kept, for one line and 1024 characters.
-/

namespace TopicFeed.Yaml

/-- A sign or a scalar. -/
inductive Token where
  | directive (d : Directive)
  | documentStart
  | documentEnd
  | blockSequence
  | blockMapping
  | blockEnd
  | flowSequence
  | flowSequenceEnd
  | flowMapping
  | flowMappingEnd
  | blockEntry
  | flowEntry
  | key
  | value
  | reference (name : String)
  | anchor (name : String)
  | tag (name : TagName)
  | scalar (text : String) (style : Style)
  deriving DecidableEq, Repr

/-- A place that may be that of a key: the tokens before it, where it is, and whether a key must
stand there. -/
structure KeyPlace where
  position : Nat
  mark : Mark
  isRequired : Bool
  deriving DecidableEq, Repr

/-- The tokens so far, the latest first, and what decides about the next one: the columns of the
block collections around, the innermost first; whether a key may begin here; and the place of a
possible key, here and in each of the brackets around. -/
structure Lexer where
  tokens : List Token := []
  count : Nat := 0
  columns : List Nat := []
  allowsKey : Bool := true
  key : Option KeyPlace := none
  outer : List (Option KeyPlace) := []
  deriving Repr

namespace Lexer

/-- Inside brackets. -/
def inFlow (x : Lexer) : Bool := !x.outer.isEmpty

/-- The least column of what belongs to the innermost block collection. -/
def inner (x : Lexer) : Nat :=
  match x.columns with
  | [] => 0
  | column :: _ => column + 1

/-- One more token. -/
def push (x : Lexer) (t : Token) : Lexer := { x with tokens := t :: x.tokens, count := x.count + 1 }

/-- A token at an earlier place. -/
def insertAt (x : Lexer) (position : Nat) (t : Token) : Lexer :=
  let behind := x.count - position
  { x with
    tokens := x.tokens.take behind ++ t :: x.tokens.drop behind
    count := x.count + 1 }

/-- Gives up the place of a possible key. -/
def dropKey (x : Lexer) : Option Lexer :=
  if x.key.any (·.isRequired) then none else some { x with key := none }

/-- Keeps this place as that of a possible key. -/
def saveKey (x : Lexer) (m : Mark) : Option Lexer :=
  if x.allowsKey then
    let isRequired := !x.inFlow && x.columns.head? == some m.column
    x.dropKey.map fun x => { x with key := some ⟨x.count, m, isRequired⟩ }
  else some x

/-- The place is too far back for its colon to come here. -/
def isStale (m : Mark) (k : KeyPlace) : Bool :=
  k.mark.line < m.line || k.mark.index + 1024 < m.index

/-- A place with none that is too far back. -/
def refreshed (m : Mark) : Option KeyPlace → Option (Option KeyPlace)
  | none => some none
  | some k => if isStale m k then if k.isRequired then none else some none else some (some k)

/-- Gives up all places that are too far back. -/
def refresh (x : Lexer) (m : Mark) : Option Lexer :=
  match refreshed m x.key, x.outer.mapM (refreshed m) with
  | some key, some outer => some { x with key, outer }
  | _, _ => none

/-- Ends the block collections that begin beyond the given column; all of them without one. -/
def unroll (x : Lexer) (column : Option Nat) : Lexer :=
  if x.inFlow then x
  else
    let ended := x.columns.takeWhile fun own => column.all (· < own)
    ended.foldl (fun x _ => x.push .blockEnd) { x with columns := x.columns.drop ended.length }

/-- Begins a block collection, if the column is a new one. -/
def roll (x : Lexer) (column position : Nat) (t : Token) : Lexer :=
  if x.inFlow || column < x.inner then x
  else { x.insertAt position t with columns := column :: x.columns }

/-- To the next token, over blanks, comments and line breaks. A tab does not count as a blank where
a key may begin, and behind a line break a key may begin. A mark of the byte order at the beginning
of a line takes a column like a blank. -/
def advance (inFlow allowsKey inComment : Bool) (m : Mark) : List Char → Bool × Cursor
  | [] => (allowsKey, ⟨[], m⟩)
  | c :: r =>
    if isBreak c then advance inFlow (!inFlow || allowsKey) false (m.next c) r
    else if inComment || c == ' ' || (c == orderMark && m.column == 0) ||
        (c == '\t' && (inFlow || !allowsKey)) then
      advance inFlow allowsKey inComment (m.next c) r
    else if c == '#' then advance inFlow allowsKey true (m.next c) r
    else (allowsKey, ⟨c :: r, m⟩)

/-- Forgets what lines mean, and takes a sign that stands outside of all collections. -/
def outside (x : Lexer) : Option Lexer :=
  (x.unroll none).dropKey.map fun x => { x with allowsKey := false }

/-- A scalar that may be a key. -/
def pushScalar (x : Lexer) (g : Gap) (style : Style) : Lexer :=
  x.push (.scalar (String.ofList g.text.reverse) style)

/-- The sign of a value. The place kept for a key becomes one; without such a place the key was
announced, or is missing. -/
def pushValue (x : Lexer) (m : Mark) : Option Lexer :=
  match x.key with
  | some k =>
    let x := (x.insertAt k.position .key).roll k.mark.column k.position .blockMapping
    some ({ x with key := none, allowsKey := false }.push .value)
  | none =>
    if x.inFlow then some ({ x with allowsKey := false }.push .value)
    else if x.allowsKey then some ((x.roll m.column x.count .blockMapping).push .value)
    else none

/-- The token at hand, which begins with the given character. -/
def token (x : Lexer) (cur : Cursor) (c : Char) (r : List Char) : Option (Lexer × Cursor) := do
  let m := cur.mark
  let sign (x : Lexer) (t : Token) : Lexer × Cursor := (x.push t, cur.next)
  let isAlone := endsWord r
  if m.column = 0 && c == '%' then
    let x ← x.outside
    let (d, cur) ← directive cur.next
    return (x.push (.directive d), cur)
  else if m.column = 0 && beginsDocument (c :: r) then
    return ((← x.outside).push .documentStart, cur.skip 3)
  else if m.column = 0 && endsDocument (c :: r) then
    return ((← x.outside).push .documentEnd, cur.skip 3)
  else if c == '[' || c == '\x7b' then
    let x ← x.saveKey m
    let x := { x with outer := x.key :: x.outer, key := none, allowsKey := true }
    return sign x (if c == '[' then .flowSequence else .flowMapping)
  else if c == ']' || c == '\x7d' then
    let x ← x.dropKey
    let x := match x.outer with
      | [] => x
      | key :: outer => { x with key, outer }
    return sign { x with allowsKey := false }
      (if c == ']' then .flowSequenceEnd else .flowMappingEnd)
  else if c == ',' then
    return sign { (← x.dropKey) with allowsKey := true } .flowEntry
  else if c == '-' && isAlone then
    if !x.inFlow && !x.allowsKey then none
    else
      let x := x.roll m.column x.count .blockSequence
      return sign { (← x.dropKey) with allowsKey := true } .blockEntry
  else if c == '?' && (x.inFlow || isAlone) then
    if !x.inFlow && !x.allowsKey then none
    else
      let x := x.roll m.column x.count .blockMapping
      return sign { (← x.dropKey) with allowsKey := !x.inFlow } .key
  else if c == ':' && (x.inFlow || isAlone) then
    return (← x.pushValue m, cur.next)
  else if c == '*' || c == '&' then
    let x ← x.saveKey m
    let (name, cur) ← anchor cur.next
    let t := if c == '*' then Token.reference name else .anchor name
    return ({ x with allowsKey := false }.push t, cur)
  else if c == '!' then
    let x ← x.saveKey m
    let (name, cur) ← tag x.inFlow cur
    return ({ x with allowsKey := false }.push (.tag name), cur)
  else if (c == '|' || c == '>') && !x.inFlow then
    let x ← x.dropKey
    let (text, cur) ← block (c == '>') x.inner cur.next
    return ({ x with allowsKey := true }.push
      (.scalar (String.ofList text) (if c == '|' then .literal else .folded)), cur)
  else if c == '\'' then
    let x ← x.saveKey m
    let (g, cur) ← singleQuoted {} (m.next c) r
    return ({ x with allowsKey := false }.pushScalar g .quoted, cur)
  else if c == '"' then
    let x ← x.saveKey m
    let (g, cur) ← doubleQuoted {} .none (m.next c) r
    return ({ x with allowsKey := false }.pushScalar g .quoted, cur)
  else if (!isBlank c && !among "-?:,[]\x7b\x7d#&*!|>'\"%@`" c) ||
      (c == '-' && !r.head?.any isBlank) ||
      (!x.inFlow && (c == '?' || c == ':') && !isAlone) then
    let x ← x.saveKey m
    let (g, cur) ← plain x.inFlow x.inner {} m (c :: r)
    return ({ x with allowsKey := g.atLine }.pushScalar g .plain, cur)
  else none

/-- All tokens. Each takes a character, so their number is bounded by that of the characters. -/
def run (x : Lexer) (cur : Cursor) : Nat → Option (List Token)
  | 0 => none
  | more + 1 => do
    let (allowsKey, cur) := advance x.inFlow x.allowsKey false cur.mark cur.rest
    let x ← { x with allowsKey }.refresh cur.mark
    let x := x.unroll (some cur.mark.column)
    match cur.rest with
    | [] =>
      let x ← (x.unroll none).dropKey
      return x.tokens.reverse
    | c :: r =>
      let (x, cur) ← x.token cur c r
      run x cur more

end Lexer

/-- The tokens of a text, if it has only characters that it may have and every sign has its
place. -/
def Token.ofText? (s : String) : Option (List Token) :=
  let cs := s.toList
  if cs.all isAllowed then Lexer.run {} { rest := normalize cs } (cs.length + 1) else none

end TopicFeed.Yaml
