import Inlay.Command.Handler

set_option autoImplicit false

/-! # Built-in handlers

The handlers that an alias reaches by name without an entry of their own.

* `identity` passes the value on, `verbatim` keeps the tag, `drop` removes it.
* `reject_leftover_attrs` fails when an attribute has not been consumed.
* `include` replaces the tag by the text of a file, named relative to the document by `file` or
  relative to the base directory by `virtual`. The text is not scanned for tags.
* `echo` replaces the tag by the variable named by `var`, or by `default` if there is none.
-/

namespace Inlay

namespace Builtin

/-- Pass the value on. -/
def passOn : Handler := fun value tag _ => .pure (value, tag)

/-- Keep the tag as it stands. -/
def keepTag : Handler := fun _ tag _ => .pure (.null, tag)

/-- Remove the tag. -/
def dropTag : Handler := fun _ tag _ => .pure (.text "", tag)

/-- Pass the value on if all attributes are consumed. -/
def rejectLeftover : Handler := fun value tag _ =>
  match tag.leftoverError? with
  | some e => .fail e
  | none => .pure (value, tag)

/-- Fetch the text of a file. -/
def includeFile : Handler := fun _ tag cursor =>
  let rest := (tag.without "file").without "virtual"
  let load (path : Path) : Reply (Value × Tag) :=
    .pure (.fetch { work := .load 0 path cursor.encoding }, rest)
  match tag.attr? "file", tag.attr? "virtual" with
  | some file, none => load (cursor.resolveFile file)
  | none, some path => load (cursor.resolveVirtual path)
  | some _, some _ => .fail (tag.error "use either \"file\" or \"virtual\", not both")
  | none, none => .fail (tag.error "missing attribute \"file\" or \"virtual\"")

/-- What stands for a variable that has no value. -/
def noVariable : String := "(none)"

/-- Write the value of a variable. -/
def echoVariable : Handler := fun _ tag cursor =>
  match tag.attr? "var" with
  | none => .fail (tag.error "missing attribute \"var\"")
  | some name =>
    let tag := tag.without "var"
    let fallback := (tag.attr? "default").getD noVariable
    .pure (.text ((cursor.lookup? name).getD fallback), tag.without "default")

/-- The built-in handlers by name. -/
def table : List (String × Handler) :=
  [("identity", passOn), ("verbatim", keepTag), ("drop", dropTag),
   ("reject_leftover_attrs", rejectLeftover), ("include", includeFile), ("echo", echoVariable)]

/-- The names of the built-in handlers. -/
def names : List String := table.map Prod.fst

/-- The built-in handler of a name. -/
def find? (name : String) : Option Handler := table.lookup name

end Builtin

end Inlay
