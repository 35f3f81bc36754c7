import Inlay.Command.Builtin
import Inlay.Markup.Candidate

set_option autoImplicit false

/-! # Registry

The handlers of commands, by name, and the markers of command tags. An entry is a handler or an
alias. An alias names an entry that is a handler, or else a built-in handler; it never leads
through another alias.
-/

namespace Inlay

/-! ## Keys of settings that are no command names -/

namespace Key

/-- Sets the opening marker. -/
def opening : String := ">prefix"

/-- Sets the closing marker. -/
def closing : String := ">suffix"

/-- The handler that runs before the handler of the command. -/
def before : String := ">before"

/-- The handler that runs when the command has none. -/
def other : String := ">other"

/-- The handler that runs after that of the command. -/
def after : String := ">after"

end Key

/-- One entry of a registry. -/
inductive CommandEntry where
  | handler (h : Handler)
  | alias (target : String)

/-- How an entry is shown. -/
def CommandEntry.shown : CommandEntry → String
  | .handler _ => "Handler(..)"
  | .alias target => "Alias(" ++ quotedText target ++ ")"

/-- Handlers by name, and the markers. -/
structure Registry where
  markers : Markers
  entries : List (String × CommandEntry) := []

namespace Registry

/-- The registry of the usual markers, `<!--#name ...-->`, without commands. -/
def standard : Registry := { markers := ⟨some "!--#", some "--"⟩ }

/-- The registry without markers, for which every tag is a command tag. -/
def unmarked : Registry := { markers := ⟨none, none⟩ }

/-- The entry of a key. -/
def find? (r : Registry) (key : String) : Option CommandEntry := r.entries.lookup key

/-- Put an entry under a key in place of an earlier one. -/
def insert (r : Registry) (key : String) (e : CommandEntry) : Registry :=
  { r with entries := (key, e) :: r.entries.filter fun x => x.1 != key }

/-- Remove the entry of a key. -/
def erase (r : Registry) (key : String) : Registry :=
  { r with entries := r.entries.filter fun x => x.1 != key }

/-- Whether a key has an entry, of whatever use. -/
def contains (r : Registry) (key : String) : Bool := (r.find? key).isSome

/-- Apply a setting: the two marker keys set a marker, which an empty value removes, and any other
key becomes an alias. -/
def configure (r : Registry) (key value : String) : Registry :=
  let marker := if value.isEmpty then none else some value
  if key == Key.opening then { r with markers := { r.markers with opening := marker } }
  else if key == Key.closing then { r with markers := { r.markers with closing := marker } }
  else r.insert key (.alias value)

/-- The handler that a key leads to. -/
def resolve (r : Registry) (key : String) : Option Handler :=
  match r.find? key with
  | none => none
  | some (.handler h) => some h
  | some (.alias target) =>
    match r.find? target with
    | some (.handler h) => some h
    | _ => Builtin.find? target

end Registry

end Inlay
