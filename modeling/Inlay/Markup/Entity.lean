set_option autoImplicit false

/-! # Character entities

The five entities that stand for a character with a meaning in markup. They are replaced one kind
after another. The ampersand comes last, so that its replacement never completes an entity and a
text that was escaped twice is decoded once.
-/

namespace Inlay

/-- Replace each occurrence of `pattern`, from left to right and without overlaps. The counter tells
how many characters of the occurrence last found are still to be passed over. -/
def replaceFrom (pattern replacement : List Char) : Nat → List Char → List Char
  | _, [] => []
  | passed + 1, _ :: rest => replaceFrom pattern replacement passed rest
  | 0, c :: rest =>
    if pattern.isPrefixOf (c :: rest) then
      replacement ++ replaceFrom pattern replacement (pattern.length - 1) rest
    else c :: replaceFrom pattern replacement 0 rest

/-- Replace each occurrence of `pattern` by `replacement`. -/
def replaceAll (pattern replacement text : List Char) : List Char :=
  replaceFrom pattern replacement 0 text

/-- The entities and the characters they stand for, in the order in which they are replaced. -/
def entities : List (List Char × Char) :=
  [(['&', 'q', 'u', 'o', 't', ';'], '"'), (['&', 'a', 'p', 'o', 's', ';'], '\''),
   (['&', 'l', 't', ';'], '<'), (['&', 'g', 't', ';'], '>'), (['&', 'a', 'm', 'p', ';'], '&')]

/-- Replace the entities of a table one kind after another. -/
def replaceEach (table : List (List Char × Char)) (text : List Char) : List Char :=
  table.foldl (fun text e => replaceAll e.1 [e.2] text) text

/-- A text with its entities replaced by the characters they stand for. A text without ampersands
has none. -/
def decodeEntities (text : List Char) : List Char :=
  if text.contains '&' then replaceEach entities text else text

end Inlay
