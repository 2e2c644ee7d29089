/-!
# Arguments

The arguments of a program, read from the left. A switch is given by its name after two dashes or
by its letter after one, once at most. A value stands behind an equals sign, right behind the
letter, or in the next argument, which then must not look like a switch. After two dashes alone
everything is an operand. What is wrong first ends the reading, and so does a switch that asks for
something to be shown.
-/

namespace TopicFeed.Command

/-- Why there is nothing to do: the arguments are wrong, or something is only to be shown. -/
inductive Stop where
  | misuse
  | help
  | version
  deriving DecidableEq, Repr

/-- What a switch does: it takes a value, it is a flag, or it ends the reading. -/
inductive Effect where
  | value
  | flag
  | stop (what : Stop)
  deriving DecidableEq, Repr

/-- A switch: its name, its letter if it has one, and what it does. -/
structure Switch where
  name : String
  letter : Option Char := none
  effect : Effect := .value
  deriving DecidableEq, Repr

/-- What may be given: some switches, and at most so many operands. -/
structure Grammar where
  switches : List Switch
  operands : Option Nat := none
  deriving DecidableEq, Repr

/-- What has been given: switches by name, each with its value, and operands. `awaiting` names the
switch whose value is to come; once `literal` holds everything is an operand. -/
structure Given where
  switches : List (String × String) := []
  operands : List String := []
  awaiting : Option String := none
  literal : Bool := false
  deriving DecidableEq, Repr

namespace Given

/-- The value that a switch was given. -/
def value? (g : Given) (name : String) : Option String := g.switches.lookup name

/-- A switch is given its value. -/
def put (g : Given) (name value : String) : Except Stop Given :=
  if (g.value? name).isSome then .error .misuse
  else .ok { g with switches := g.switches ++ [(name, value)], awaiting := none }

/-- One more operand. -/
def operand (g : Given) (grammar : Grammar) (arg : String) : Except Stop Given :=
  if grammar.operands.any (· ≤ g.operands.length) then .error .misuse
  else .ok { g with operands := g.operands ++ [arg] }

/-- A name after two dashes, with the value behind its equals sign if there is one. -/
def name (g : Given) (grammar : Grammar) (text : List Char) : Except Stop Given :=
  let name := String.ofList (text.takeWhile (· ≠ '='))
  let value := text.dropWhile (· ≠ '=')
  match grammar.switches.find? (·.name == name) with
  | none => .error .misuse
  | some s =>
    match s.effect, value with
    | .value, [] => .ok { g with awaiting := some s.name }
    | .value, _ :: value => g.put s.name (String.ofList value)
    | .flag, [] => g.put s.name ""
    | .stop what, [] => .error what
    | _, _ :: _ => .error .misuse

/-- Letters after one dash. What follows the letter of a switch that takes a value is the value. -/
def letters (g : Given) (grammar : Grammar) : List Char → Except Stop Given
  | [] => .ok g
  | c :: rest =>
    match grammar.switches.find? (·.letter == some c) with
    | none => .error .misuse
    | some s =>
      match s.effect, rest with
      | .value, [] => .ok { g with awaiting := some s.name }
      | .value, '=' :: value => g.put s.name (String.ofList value)
      | .value, value => g.put s.name (String.ofList value)
      | .flag, _ => do letters (← g.put s.name "") grammar rest
      | .stop what, _ => .error what

/-- One argument that is neither a switch nor the end of all switches. A lone dash is one. -/
def plain (g : Given) (grammar : Grammar) (arg : String) : Except Stop Given :=
  match g.awaiting with
  | some name => g.put name arg
  | none => g.operand grammar arg

/-- One argument. -/
def step (grammar : Grammar) (g : Given) (arg : String) : Except Stop Given :=
  if g.literal then g.operand grammar arg
  else
    match arg.toList with
    | ['-'] => g.plain grammar arg
    | '-' :: rest =>
      if g.awaiting.isSome then .error .misuse
      else
        match rest with
        | ['-'] => .ok { g with literal := true }
        | '-' :: text => g.name grammar text
        | text => g.letters grammar text
    | _ => g.plain grammar arg

/-- No value is missing at the end. -/
def finish (g : Given) : Except Stop Given :=
  if g.awaiting.isSome then .error .misuse else .ok g

end Given

namespace Grammar

/-- Reads all arguments. -/
def read (grammar : Grammar) (args : List String) : Except Stop Given :=
  (args.foldlM (Given.step grammar) {}).bind Given.finish

/-- Reads arguments up to the first one that is an operand, which is not read any more. -/
def readSwitches (grammar : Grammar) (g : Given) : List String → Except Stop (Given × List String)
  | [] => do return (← g.finish, [])
  | arg :: rest => do
    let next ← g.step { grammar with operands := none } arg
    if next.operands.isEmpty then grammar.readSwitches next rest else return (g, arg :: rest)

end Grammar

end TopicFeed.Command
