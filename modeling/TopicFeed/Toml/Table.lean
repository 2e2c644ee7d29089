/-!
# TOML values and tables

A TOML text is one table. A table comes into being in one of four ways, and this decides what may
be added to it later: one in braces is complete, one under a header may get no second header, one
that a header only passes through may get one, and one that a dotted key has made grows by dotted
keys alone.
-/

namespace TopicFeed.Toml

/-- How a table came into being. -/
inductive Origin where
  | braces
  | header
  | passed
  | dotted
  deriving DecidableEq, Repr

/-- A value. Logical values and numbers with a fraction are not told apart. -/
inductive Value where
  | text (s : String)
  | integer (n : Int)
  | date (s : String)
  | other
  | list (items : List Value)
  | tables (items : List (List (String × Value)))
  | table (origin : Origin) (entries : List (String × Value))
  deriving Repr, Inhabited

/-- The keys and values of a table. -/
abbrev Entries := List (String × Value)

namespace Entries

/-- The value of a key. -/
def get? (entries : Entries) (key : String) : Option Value :=
  (entries.find? (·.1 == key)).map (·.2)

/-- Gives a key another value, at its place. -/
def replace (entries : Entries) (key : String) (value : Value) : Entries :=
  entries.map fun e => if e.1 == key then (key, value) else e

/-- Changes the table at the end of a path, along which missing tables are made. A dotted path goes
through no table that has a header. A list of tables stands for its last one. -/
def along (isDotted : Bool) (change : Origin → Entries → Option (Origin × Entries)) :
    List String → Origin → Entries → Option (Origin × Entries)
  | [], origin, entries => change origin entries
  | key :: path, origin, entries =>
    match entries.get? key with
    | none =>
      (along isDotted change path (if isDotted then .dotted else .passed) []).map
        fun (made, inner) => (origin, entries ++ [(key, .table made inner)])
    | some (.table own inner) =>
      if own = .braces || (isDotted && own = .header) then none
      else (along isDotted change path own inner).map fun (own, inner) =>
        (origin, entries.replace key (.table own inner))
    | some (.tables items) =>
      match items.getLast? with
      | none => none
      | some last =>
        (along isDotted change path .header last).map fun (_, inner) =>
          (origin, entries.replace key (.tables (items.dropLast ++ [inner])))
    | some _ => none

/-- Adds a value under a dotted key. No key comes twice, and a table does not get keys both of its
own and by dotted keys. -/
def add (path : List String) (key : String) (value : Value) (origin : Origin)
    (entries : Entries) : Option (Origin × Entries) :=
  along true (fun origin entries =>
    if (origin == .dotted) == path.isEmpty || (entries.get? key).isSome then none
    else some (origin, entries ++ [(key, value)])) path origin entries

/-- Adds a value under a dotted key to the table under a header. -/
def addUnder (header path : List String) (key : String) (value : Value) (root : Entries) :
    Option Entries :=
  (along false (add path key value) header .header root).map (·.2)

/-- The header of a table. -/
def openTable (path : List String) (key : String) (root : Entries) : Option Entries :=
  (along false (fun origin entries =>
    match entries.get? key with
    | none => some (origin, entries ++ [(key, .table .header [])])
    | some (.table .passed inner) => some (origin, entries.replace key (.table .header inner))
    | some _ => none) path .header root).map (·.2)

/-- The header of one more table of a list. -/
def openListed (path : List String) (key : String) (root : Entries) : Option Entries :=
  (along false (fun origin entries =>
    match entries.get? key with
    | none => some (origin, entries ++ [(key, .tables [[]])])
    | some (.tables items) => some (origin, entries.replace key (.tables (items ++ [[]])))
    | some _ => none) path .header root).map (·.2)

end Entries

end TopicFeed.Toml
