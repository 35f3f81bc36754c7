import Inlay.Command.Value
import Inlay.Markup.Tag

set_option autoImplicit false

/-! # Handlers

A handler sees the value of the handler before it, the tag with the attributes not consumed yet,
and where the tag stands. It answers with a value and with the tag less what it consumed, or with
an error, and may leave notes for the host on the way.
-/

namespace Inlay

/-- Where a tag stands, for its handlers. -/
structure Cursor where
  /-- The path of the document, if it has one. -/
  sourcePath : Option Path
  /-- The directory that rooted references are taken from. -/
  baseDir : Path
  position : Position
  /-- The number of the segment that replaces the tag. -/
  segment : Nat
  encoding : Encoding
  bindings : List (String × String)

namespace Cursor

/-- The directory of the document: that of its path, or the base directory if there is no path or
the path has no directory part. -/
def directory (c : Cursor) : Path :=
  match c.sourcePath.bind Path.parent? with
  | some dir => if dir.text.isEmpty then c.baseDir else dir
  | none => c.baseDir

/-- The path of a reference relative to the document. -/
def resolveFile (c : Cursor) (reference : String) : Path := c.directory.join ⟨reference⟩

/-- The path of a reference relative to the base directory, which a leading separator stands
for. -/
def resolveVirtual (c : Cursor) (reference : String) : Path :=
  c.baseDir.join ⟨String.ofList (reference.toList.dropWhile (· == '/'))⟩

/-- The value of a variable of the document. -/
def lookup? (c : Cursor) (name : String) : Option String := c.bindings.lookup name

end Cursor

/-- The answer of a handler, with the notes it left. -/
structure Reply (α : Type) where
  notes : List String
  result : Except TagError α

namespace Reply

/-- Answer with a value. -/
protected def pure {α : Type} (a : α) : Reply α := ⟨[], .ok a⟩

/-- Answer with an error. -/
def fail {α : Type} (e : TagError) : Reply α := ⟨[], .error e⟩

/-- Go on with a value that was answered; the notes of both parts are kept in order. -/
protected def bind {α β : Type} (r : Reply α) (f : α → Reply β) : Reply β :=
  match r.result with
  | .ok a => ⟨r.notes ++ (f a).notes, (f a).result⟩
  | .error e => ⟨r.notes, .error e⟩

instance : Monad Reply where
  pure := Reply.pure
  bind := Reply.bind

/-- Leave a note. -/
def note (s : String) : Reply Unit := ⟨[s], .ok ()⟩

end Reply

/-- A handler of tags. -/
abbrev Handler := Value → Tag → Cursor → Reply (Value × Tag)

end Inlay
