set_option autoImplicit false

/-! # Positions

A place in a source text by line and column, both counted from one. A line ends at a line feed and
columns count characters.
-/

namespace Inlay

/-- A line and a column. -/
structure Position where
  line : Nat
  column : Nat
  deriving DecidableEq, Repr, Inhabited

namespace Position

/-- Where a text begins. -/
def start : Position := ⟨1, 1⟩

/-- The place after one more character. -/
def next (p : Position) (c : Char) : Position :=
  if c = '\n' then ⟨p.line + 1, 1⟩ else ⟨p.line, p.column + 1⟩

/-- The place after some more text. -/
def after (p : Position) (text : List Char) : Position := text.foldl next p

/-- The line and the column with a colon between them. -/
def text (p : Position) : String := toString p.line ++ ":" ++ toString p.column

end Position

end Inlay
