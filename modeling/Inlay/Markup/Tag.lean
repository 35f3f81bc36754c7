import Inlay.Markup.Position

set_option autoImplicit false

/-! # Tags

A tag found in a source text. Handlers consume its attributes; what they leave can be reported.
Errors about a tag name it by its command, or by its own name when it has none, and by its
position.
-/

namespace Inlay

/-- A tag that could not be handled. -/
structure TagError where
  /-- The tag, as a person would point at it. -/
  label : String
  reason : String
  deriving DecidableEq, Repr, Inhabited

/-- The wording of an error. -/
def TagError.message (e : TagError) : String := e.label ++ ": " ++ e.reason

/-- A tag of the source text. -/
structure Tag where
  /-- The name as written, with the opening marker. -/
  name : String
  /-- The name without the opening marker; absent when no such marker is set. -/
  command : Option String
  /-- The attributes not consumed yet, in source order. -/
  attrs : List (String × String)
  position : Position
  /-- The whole tag as written. -/
  source : String
  deriving DecidableEq, Repr, Inhabited

namespace Tag

/-- The value of an attribute. -/
def attr? (t : Tag) (key : String) : Option String := t.attrs.lookup key

/-- The tag without the first attribute of the given name. -/
def without (t : Tag) (key : String) : Tag := { t with attrs := t.attrs.eraseP (·.1 == key) }

/-- The names of the attributes that nobody consumed, in source order. -/
def leftover (t : Tag) : List String := t.attrs.map Prod.fst

/-- How errors name the tag. -/
def label (t : Tag) : String :=
  match t.command with
  | some command => "cmd \"" ++ command ++ "\" @ " ++ t.position.text
  | none => "tag <" ++ t.name ++ "> @ " ++ t.position.text

/-- An error about the tag. -/
def error (t : Tag) (reason : String) : TagError := ⟨t.label, reason⟩

/-- The error that names the attributes nobody consumed, if there are any. -/
def leftoverError? (t : Tag) : Option TagError :=
  if t.attrs.isEmpty then none
  else
    let names := t.leftover.map fun name => "\"" ++ name ++ "\""
    some (t.error ("leftover attributes: " ++ ", ".intercalate names))

end Tag

end Inlay
