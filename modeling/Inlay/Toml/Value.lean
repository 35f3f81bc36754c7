import Inlay.Number.Binary64
import Inlay.Toml.Moment

set_option autoImplicit false

/-! # TOML values

The values of a TOML document. A reader that knows no dates and times meets a moment as a table
with a single entry.
-/

namespace Inlay.Toml

/-- A value of a TOML document. -/
inductive Value where
  | text (s : String)
  | boolean (b : Bool)
  | integer (i : Int)
  | float (x : Binary64)
  | moment (m : Moment)
  | list (items : List Value)
  | table (entries : List (String × Value))
  deriving Repr

/-- The entries of a table, each key once. -/
abbrev Entries := List (String × Value)

/-- The key that a moment's text has where the moment is read as a table. -/
def momentKey : String := "$__toml_private_datetime"

/-- The entries of a value that can be read as a table: a table, or a moment. -/
def Value.entries? : Value → Option Entries
  | .table entries => some entries
  | .moment m => some [(momentKey, .text m.text)]
  | _ => none

end Inlay.Toml
