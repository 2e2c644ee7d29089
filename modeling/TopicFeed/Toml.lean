import TopicFeed.Toml.Scalar
import TopicFeed.Toml.Table

/-!
# TOML

The table that a TOML text writes: lines that give keys their values, under headers that say to
which table the keys belong. Brackets and braces may go over several lines; a comma may stand
behind the last of their items. They may lie in each other eighty deep.
-/

namespace TopicFeed.Toml

/-- A step of reading: the characters that are left, or the text is no TOML. -/
abbrev Reader := StateT (List Char) Option

namespace Reader

/-- The character at hand. -/
def peek? : Reader (Option Char) := do return (← get).head?

/-- Over this character, if it is at hand. -/
def accept (c : Char) : Reader Bool := do
  if (← peek?) = some c then
    modify (·.drop 1)
    return true
  else return false

/-- Over this very character. -/
def expect (c : Char) : Reader Unit := do if ← accept c then pure () else failure

/-- The characters of the class. -/
def takeWhile (p : Char → Bool) : Reader (List Char) :=
  modifyGet fun cs =>
    let taken := cs.takeWhile p
    (taken, cs.drop taken.length)

/-- Over blanks. -/
def blanks : Reader Unit := do let _ ← takeWhile isBlank

/-- Over a comment, if one is at hand. -/
def comment : Reader Unit := do
  if ← accept '#' then
    let _ ← takeWhile isShown

/-- Over a line break, if one is at hand. -/
def lineBreak : Reader Bool :=
  modifyGet fun
    | '\n' :: r => (true, r)
    | '\r' :: '\n' :: r => (true, r)
    | cs => (false, cs)

/-- Over blanks, comments and line breaks. Each round takes a line. -/
def space : Nat → Reader Unit
  | 0 => failure
  | more + 1 => do
    blanks
    comment
    if ← lineBreak then space more

/-- A scalar that a reader of characters knows. -/
def lift {α : Type} (read : List Char → Option (α × List Char)) : Reader α := fun cs => read cs

/-- A character of a bare key. -/
def isBareChar (c : Char) : Bool := c.isAlphanum || c == '_' || c == '-'

/-- One part of a key. -/
def simpleKey : Reader String := do
  match ← peek? with
  | some '"' => do
    expect '"'
    lift (basic [])
  | some '\'' => do
    expect '\''
    lift (literal [])
  | _ =>
    let name ← takeWhile isBareChar
    if name.isEmpty then failure
    return String.ofList name

/-- The parts of a key behind the first one, with dots between them. -/
def keyParts : Nat → Reader (List String)
  | 0 => failure
  | more + 1 => do
    blanks
    if ← accept '.' then
      blanks
      let part ← simpleKey
      return part :: (← keyParts more)
    else return []

/-- The deepest level of brackets, and the longest key. -/
abbrev depth : Nat := 80

/-- A key: the path to a table, and the name of a value in it. -/
def key : Reader (List String × String) := do
  let first ← simpleKey
  let rest ← keyParts (depth + 1)
  let parts := first :: rest
  if depth < parts.length then failure
  return (parts.dropLast, parts.getLast?.getD first)

/-- A character of a word. -/
def isWordChar (c : Char) : Bool :=
  c.isAlphanum || c == '+' || c == '-' || c == '_' || c == '.' || c == ':'

/-- A value that is written as one word; a space may stand between a day and a time. -/
def word : Reader Value := do
  let first ← takeWhile isWordChar
  let cs ←
    match ← get with
    | ' ' :: c :: r =>
      if c.isDigit && (day? first).any (·.2.isEmpty) then do
        set (c :: r)
        let second ← takeWhile isWordChar
        pure (first ++ ' ' :: second)
      else pure first
    | _ => pure first
  if cs == "true".toList || cs == "false".toList then return .other
  match integer? cs, date? cs with
  | some n, _ => return .integer n
  | none, some d => return .date d
  | none, none => if isFloat cs then return .other else failure

mutual

/-- A value; `levels` more brackets may lie in each other. -/
def value (more levels : Nat) : Reader Value :=
  match more with
  | 0 => failure
  | more + 1 => do
    match ← peek?, levels with
    | some '[', 0 | some '\x7b', 0 => failure
    | some '[', levels + 1 =>
      expect '['
      return .list (← items more levels)
    | some '\x7b', levels + 1 =>
      expect '\x7b'
      return .table .braces (← entries more levels [])
    | some '"', _ | some '\'', _ => return .text (← lift string?)
    | _, _ => word

/-- The items of a list. -/
def items (more levels : Nat) : Reader (List Value) :=
  match more with
  | 0 => failure
  | more + 1 => do
    space more
    if ← accept ']' then return []
    let item ← value more levels
    space more
    if ← accept ',' then return item :: (← items more levels)
    expect ']'
    return [item]

/-- The entries of a table in braces, added to those before. -/
def entries (more levels : Nat) (done : Entries) : Reader Entries :=
  match more with
  | 0 => failure
  | more + 1 => do
    space more
    if ← accept '\x7d' then return done
    let (path, name) ← key
    blanks
    expect '='
    blanks
    let v ← value more levels
    match done.add path name v .header with
    | none => failure
    | some (_, done) =>
      space more
      if ← accept ',' then entries more levels done
      else
        expect '\x7d'
        return done

end

/-- The end of a line: nothing but a comment is left of it. -/
def lineEnd : Reader Unit := do
  blanks
  comment
  if ← lineBreak then pure ()
  else if (← get).isEmpty then pure ()
  else failure

/-- Headers and entries to the end of the text. The header says to which table entries belong. -/
def lines (more : Nat) (header : List String) (root : Entries) : Reader Entries :=
  match more with
  | 0 => failure
  | more + 1 => do
    space more
    match ← peek? with
    | none => return root
    | some '[' =>
      expect '['
      let isListed ← accept '['
      blanks
      let (path, name) ← key
      blanks
      expect ']'
      if isListed then expect ']'
      lineEnd
      match if isListed then root.openListed path name else root.openTable path name with
      | none => failure
      | some root => lines more (path ++ [name]) root
    | some _ =>
      let (path, name) ← key
      blanks
      expect '='
      blanks
      let v ← value more depth
      lineEnd
      match root.addUnder header path name v with
      | none => failure
      | some root => lines more header root

end Reader

/-- The table that a text writes. -/
def ofText? (s : String) : Option Entries :=
  let cs := s.toList
  let cs := if cs.head? = some '\uFEFF' then cs.drop 1 else cs
  (Reader.lines (2 * cs.length + 2) [] [] cs).map (·.1)

end TopicFeed.Toml
