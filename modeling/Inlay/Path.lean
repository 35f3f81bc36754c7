set_option autoImplicit false

/-! # Paths

Paths as texts whose parts are separated by `/`. A path is shown as it was written; what it names
is its list of components, in which repeated and trailing separators and every `.` but a leading
one do not count, while `..` does. Two paths are the same when their components are.
-/

namespace Inlay

/-- A path, as written. -/
structure Path where
  text : String
  deriving DecidableEq, Repr, Inhabited

/-- One component of a path. -/
inductive Component where
  | root
  | current
  | parent
  | name (text : String)
  deriving DecidableEq, Repr, Inhabited

namespace Path

instance : ToString Path := ⟨Path.text⟩

/-- The parts of a text between its separators; there is one more part than there are
separators. -/
def parts : List Char → List (List Char)
  | [] => [[]]
  | c :: rest =>
    if c = '/' then [] :: parts rest
    else match parts rest with
      | [] => [[c]]
      | part :: others => (c :: part) :: others

/-- Parts joined by separators again. -/
def joinParts (parts : List (List Char)) : List Char := List.intercalate ['/'] parts

/-- Whether a part does not count as a component: an empty part or a `.`. -/
def isVoid (part : List Char) : Bool := part.isEmpty || part == ['.']

/-- Whether a path starts at the root. -/
def isAbsolute (p : Path) : Bool := p.text.toList.head? == some '/'

/-- The head of a path that is not one of its named components, the root separator or a leading
`.`, and the text after it. -/
def splitHead (text : List Char) : List Char × List Char :=
  match text with
  | '/' :: rest => (['/'], rest)
  | ['.'] => (['.'], [])
  | '.' :: '/' :: rest => (['.'], '/' :: rest)
  | rest => ([], rest)

/-- The component that a part stands for. -/
def componentOf (part : List Char) : Component :=
  if part == ['.', '.'] then .parent else .name (String.ofList part)

/-- The components of a path. -/
def components (p : Path) : List Component :=
  let (head, body) := splitHead p.text.toList
  let named := ((parts body).filter fun part => !isVoid part).map componentOf
  match head with
  | ['/'] => .root :: named
  | ['.'] => .current :: named
  | _ => named

/-- Whether two paths have the same components. -/
def same (p q : Path) : Bool := p.components == q.components

/-- The parts without the void ones at their end. -/
def dropVoids (parts : List (List Char)) : List (List Char) :=
  (parts.reverse.dropWhile isVoid).reverse

/-- The path without its last component; the root and the empty path have none. -/
def parent? (p : Path) : Option Path :=
  let (head, body) := splitHead p.text.toList
  match (dropVoids (parts body)).reverse with
  -- a leading `.` is a component, the last one if no other follows
  | [] => if head == ['.'] then some ⟨""⟩ else none
  | _ :: before =>
    some ⟨String.ofList (head ++ joinParts (dropVoids before.reverse))⟩

/-- The path `q` taken from the directory `p`. An absolute path replaces the directory. -/
def join (p q : Path) : Path :=
  if q.isAbsolute then q
  else if p.text.isEmpty || p.text.toList.getLast? == some '/' then ⟨p.text ++ q.text⟩
  else ⟨p.text ++ "/" ++ q.text⟩

end Path

end Inlay
