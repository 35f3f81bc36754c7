import Inlay.Command.Registry

set_option autoImplicit false

/-! # The chain of handlers

The handlers that run for one tag, each with the value and the tag that the one before it left: the
handler before all, that of the command or, if it has none, the one for other tags, and the handler
after all. A step without a handler passes the value on.
-/

namespace Inlay

/-- What replaces a tag. -/
inductive Replacement where
  | text (s : String)
  | later (f : Fetch)

namespace Registry

/-- Run the handler of a key, if there is one; the answer tells whether it ran. -/
def run (r : Registry) (key : String) (value : Value) (tag : Tag) (cursor : Cursor) :
    Reply (Value × Tag × Bool) :=
  match r.resolve key with
  | none => .pure (value, tag, false)
  | some h => do
    let (value, tag) ← h value tag cursor
    pure (value, tag, true)

/-- The key of a tag's own handler: its command, or its name after a `<` when it has none. -/
def commandKey (tag : Tag) : String :=
  match tag.command with
  | some command => command
  | none => "<" ++ tag.name

/-- What a final value makes of a tag. -/
def replacement (value : Value) (tag : Tag) : Reply Replacement :=
  if value.isFalsy then .pure (.text tag.source)
  else match value with
    | .text s => .pure (.text s)
    | .fetch f => .pure (.later f)
    | other =>
      .fail (tag.error ("Unsupported return value from command handler: " ++ other.shown))

/-- Run the chain of a tag: what replaces it, and the tag less the attributes consumed. Attributes
left over are an error if `strict` is set and a handler of the command or for other tags ran. -/
def dispatch (r : Registry) (strict : Bool) (tag : Tag) (cursor : Cursor) :
    Reply (Replacement × Tag) := do
  let (value, tag, _) ← r.run Key.before .null tag cursor
  let (value, tag, ran) ← r.run (commandKey tag) value tag cursor
  let (value, tag, handled) ←
    if ran then pure (value, tag, true) else r.run Key.other value tag cursor
  let (value, tag, _) ← r.run Key.after value tag cursor
  -- a tag that no handler was for is kept with its attributes, and they are no error
  match if handled && strict then tag.leftoverError? else none with
  | some e => Reply.fail e
  | none =>
    let replaced ← replacement value tag
    pure (replaced, tag)

end Registry

end Inlay
