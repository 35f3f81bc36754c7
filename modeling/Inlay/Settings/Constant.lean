import Inlay.Command.Handler

set_option autoImplicit false

/-! # Constants

Fixed values that a configuration gives to commands. As the value of a handler a constant is held
to the rules for all values: `false` and zero keep the tag, a text replaces it, and nothing else
can.
-/

namespace Inlay

/-- A fixed value. -/
inductive Constant where
  | bool (b : Bool)
  | integer (i : Int)
  | float (x : Binary64)
  | text (s : String)
  deriving DecidableEq, Repr

namespace Constant

/-- How a constant is shown; a text as it is. -/
def shown : Constant → String
  | .bool b => if b then "true" else "false"
  | .integer i => toString i
  | .float x => x.text
  | .text s => s

/-- The value of a constant for a tag. An integer is the nearest number. -/
def value : Constant → Value
  | .bool b => .bool b
  | .integer i => .number (.ofInt i)
  | .float x => .number x
  | .text s => .text s

/-- The handler that always answers with a constant. -/
def handler (c : Constant) : Handler := fun _ tag _ => .pure (c.value, tag)

end Constant

end Inlay
