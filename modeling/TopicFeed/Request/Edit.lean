import TopicFeed.Request.Option

/-!
# Edits

Everything that can be called to change a specification, and the record of the calls that were not
refused. What a call says about a header or a query parameter can be read off the call alone.
-/

namespace TopicFeed.Request

/-- A call that changes a specification. -/
inductive Edit where
  | setHeader (name value : String)
  | removeHeader (name : String)
  | setQuery (name value : String)
  | setCredentials (credentials : Credentials)
  | option (o : RequestOption)
  deriving DecidableEq, Repr

/-- Makes a call: the specification that it leaves, and the fault if it is refused. -/
def Spec.edit (spec : Spec) : Edit → Spec × Option OptionFault
  | .setHeader name value => spec.setHeader name value
  | .removeHeader name => (spec.removeHeader name, none)
  | .setQuery name value => (spec.setQuery name value, none)
  | .setCredentials credentials => (spec.setCredentials credentials, none)
  | .option o => spec.apply o

namespace Edit

/-- What a call says about a header, if it concerns it: its new value, or none. -/
def header? (name : String) : Edit → Option (Option String)
  | .setHeader n value | .option (.header n value) =>
    if Header.isSame n name then some (some value) else none
  | .removeHeader n | .option (.removeHeader n) =>
    if Header.isSame n name then some none else none
  | .option (.priority level) =>
    if Header.isSame "X-Priority" name then some (some level) else none
  | .setCredentials _ | .option (.auth _) =>
    if Header.isSame Header.authorization name then some none else none
  | .setQuery _ _ | .option (.query _ _) | .option (.since _) => none

/-- The query parameter that a call sets, with its value. -/
def setting? : Edit → Option (String × String)
  | .setQuery n value | .option (.query n value) => some (n, value)
  | .option (.since start) => some ("since", start)
  | .setHeader _ _ | .removeHeader _ | .setCredentials _ | .option (.header _ _)
  | .option (.removeHeader _) | .option (.priority _) | .option (.auth _) => none

/-- The value that a call gives to a query parameter. -/
def query? (name : String) (e : Edit) : Option String :=
  e.setting?.bind fun p => if p.1 = name then some p.2 else none

/-- What the last call says that says something. -/
def latest {α : Type} (view : Edit → Option α) (edits : List Edit) : Option α :=
  edits.reverse.findSome? view

end Edit

/-- The settings whose name is not set once more later. -/
def standing : List (String × String) → Named
  | [] => []
  | p :: rest => if p.1 ∈ Named.names rest then standing rest else p :: standing rest

/-- A specification, and the calls on the way to it that were not refused. -/
structure Edited where
  spec : Spec := {}
  accepted : List Edit := []

/-- One call further. What a call leaves is gone on from, also if it is refused. -/
def Edited.step (e : Edited) (edit : Edit) : Edited :=
  match e.spec.edit edit with
  | (next, none) => { spec := next, accepted := e.accepted ++ [edit] }
  | (reached, some _) => { e with spec := reached }

/-- What a list of calls on a fresh specification leads to. -/
def edited (edits : List Edit) : Edited := edits.foldl Edited.step {}

end TopicFeed.Request
