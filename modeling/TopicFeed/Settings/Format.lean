import TopicFeed.Decimal.Word
import TopicFeed.Settings

/-!
# Formats of settings

Settings are written in formats that agree on the names of the fields and on what a record is, and
differ in what counts as a text, a number or nothing. A format says how its values are taken; what
the settings are is said once, here. Fields that are missing keep their defaults, fields of other
names are ignored, and a field must not come twice.
-/

namespace TopicFeed.Settings

/-- Taking a value: it may not be of the kind that is wanted. A format may limit how often it
follows references; the state is how often it still may. -/
abbrev Taking := StateT Nat Option

/-- How the values of a format are taken. -/
structure Format (ν : Type) where
  text : ν → Taking String
  natural : ν → Taking Nat
  /-- A value that may also say that there is none. -/
  nullable : ν → Taking (Option ν)
  list : ν → Taking (List ν)
  pairs : ν → Taking (List (String × ν))
  /-- The fields of a record, whose names are given in their order. -/
  fields : List String → ν → Taking (List (String × ν))

namespace Format

variable {ν : Type}

/-- A field of a record of type `ρ`: its name, and how its value changes the record. -/
structure Field (ν ρ : Type) where
  name : String
  put : ν → ρ → Taking ρ

/-- A field whose value is of the given kind. -/
def Field.of {ρ α : Type} (name : String) (take : ν → Taking α) (put : α → ρ → ρ) : Field ν ρ :=
  ⟨name, fun v r => do return put (← take v) r⟩

/-- A text, or none. -/
def optionalText (f : Format ν) (v : ν) : Taking (Option String) := do
  (← f.nullable v).mapM f.text

/-- A natural number of 64 bits. -/
def word (f : Format ν) (v : ν) : Taking Nat := do
  let n ← f.natural v
  if n < Decimal.wordBound then return n else failure

/-- Goes through the fields of a record; `seen` holds the names that have come. -/
def put {ρ : Type} (table : List (Field ν ρ)) (seen : List String) (r : ρ) :
    List (String × ν) → Taking ρ
  | [] => return r
  | (name, v) :: rest =>
    match table.find? (·.name == name) with
    | none => put table seen r rest
    | some field => do
      if seen.contains name then failure
      put table (name :: seen) (← field.put v r) rest

/-- A record, from its defaults. -/
def record {ρ : Type} (f : Format ν) (table : List (Field ν ρ)) (defaults : ρ) (v : ν) :
    Taking ρ := do
  put table [] defaults (← f.fields (table.map (·.name)) v)

/-- Values by key; of equal keys the last one counts. -/
def conditions (f : Format ν) (v : ν) : Taking Conditions := do
  (← f.pairs v).foldlM (fun c p => do return c.insert p.1 (← f.text p.2)) .empty

/-- The fields of an entry, in their order. -/
def entryFields (f : Format ν) : List (Field ν Entry) := [
  .of "topic" f.text fun x e => { e with topic := x },
  .of "user" f.optionalText fun x e => { e with user := x },
  .of "password" f.optionalText fun x e => { e with password := x },
  .of "token" f.optionalText fun x e => { e with token := x },
  .of "command" f.text fun x e => { e with command := x },
  .of "if" f.conditions fun x e => { e with conditions := x }]

/-- An entry. -/
def entry (f : Format ν) (v : ν) : Taking Entry := f.record f.entryFields {} v

/-- The fields of the settings. -/
def settingsFields (f : Format ν) : List (Field ν Settings) := [
  .of "default-host" f.text fun x s => { s with defaultHost := x },
  .of "default-user" f.text fun x s => { s with defaultUser := x },
  .of "default-password" f.optionalText fun x s => { s with defaultPassword := x },
  .of "default-token" f.text fun x s => { s with defaultToken := x },
  .of "default-command" f.text fun x s => { s with defaultCommand := x },
  .of "subscribe" (fun v => do (← f.list v).mapM f.entry) fun x s => { s with subscriptions := x },
  .of "reconnect-delay-ms" f.word fun x s => { s with reconnectDelay := x },
  .of "queue-capacity" f.word fun x s => { s with queueCapacity := x }]

/-- The settings that a value writes, with a limit on following references. -/
def settings? (f : Format ν) (limit : Nat) (v : ν) : Option Settings :=
  ((f.record f.settingsFields {} v).run limit).map (·.1)

end Format

end TopicFeed.Settings
