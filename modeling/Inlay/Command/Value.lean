import Inlay.Command.Fetch
import Inlay.Number.Reading
import Inlay.Number.Shortest

set_option autoImplicit false

/-! # Values

What the handlers of a tag pass on to one another. The value that leaves the last handler decides
what replaces the tag: nothing, `false`, zero and a NaN keep the tag as it stands, a text replaces
it, and a fetch brings the text later. No other value can replace a tag.
-/

namespace Inlay

/-- A value passed along a chain of handlers. -/
inductive Value where
  | null
  | bool (b : Bool)
  | number (n : Binary64)
  | text (s : String)
  | fetch (f : Fetch)

namespace Value

/-- Whether a value keeps the tag as it stands. -/
def isFalsy : Value → Bool
  | .null => true
  | .bool b => !b
  | .number n => n.isZero || n.isNaN
  | .text _ => false
  | .fetch _ => false

/-- How a value is shown. -/
def shown : Value → String
  | .null => "null"
  | .bool b => if b then "true" else "false"
  | .number n => n.text
  | .text s => quotedText s
  | .fetch _ => "<fetcher>"

end Value

end Inlay
