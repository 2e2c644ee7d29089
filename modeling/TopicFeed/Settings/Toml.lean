import TopicFeed.Settings.Format
import TopicFeed.Toml

/-!
# Settings in TOML

A text is a string, and a number a whole number that is not negative. A record is a table, or the
list of its fields in their order; what such a list holds beyond them does not count. A date is
taken for a table of one entry.
-/

namespace TopicFeed.Settings

open Toml

namespace TomlFormat

/-- The key under which a date is found. -/
abbrev dateKey : String := "$__toml_private_datetime"

/-- A string. -/
def text : Value → Taking String
  | .text s => return s
  | _ => failure

/-- A whole number that is not negative. -/
def natural : Value → Taking Nat
  | .integer n => if 0 ≤ n then return n.toNat else failure
  | _ => failure

/-- The items of a list. -/
def list : Value → Taking (List Value)
  | .list items => return items
  | .tables items => return items.map (.table .header)
  | _ => failure

/-- The entries of a table. -/
def pairs : Value → Taking (List (String × Value))
  | .table _ entries => return entries
  | .date s => return [(dateKey, .text s)]
  | _ => failure

/-- The values of TOML as settings. -/
def format : Format Value where
  text := text
  natural := natural
  nullable := fun v => return some v
  list := list
  pairs := pairs
  fields := fun names v =>
    match v with
    | .list items => return names.zip items
    | .tables items => return names.zip (items.map (.table .header))
    | _ => pairs v

end TomlFormat

/-- The settings that a TOML text writes. -/
def ofToml? (s : String) : Option Settings :=
  (Toml.ofText? s).bind fun root => TomlFormat.format.settings? 0 (.table .header root)

end TopicFeed.Settings
