import Inlay.Text.Alphanumeric

set_option autoImplicit false

/-! # Expansion of variables

A text may refer to variables of the environment. `$name` takes letters, digits and underscores as
far as they go. In braces after the `$` stands a name of any characters and, after `:-`, a text for
the case that the variable is not set. `$$` is a plain `$`, and so is a `$` that begins none of
these. What a variable holds is not expanded again.
-/

namespace Inlay

/-- The variables of the environment, by name. -/
abbrev Environment := List (String × String)

/-- Whether a character may stand in a name that is not in braces. -/
def isNameChar (c : Char) : Bool := isAlphanumeric c || c == '_'

/-- Split a text at its first `:-`. -/
def splitFallback : List Char → List Char × Option (List Char)
  | [] => ([], none)
  | ':' :: '-' :: rest => ([], some rest)
  | c :: rest =>
    let (name, fallback) := splitFallback rest
    (c :: name, fallback)

/-- The name in braces and what stands for the variable if it is not set. A text that begins with
`:-` is all name. -/
def reference (body : List Char) : List Char × Option (List Char) :=
  match splitFallback body with
  | ([], some _) => (body, none)
  | split => split

/-- The value of a variable, or else the fallback; without either the name is the error. -/
def variableValue (env : Environment) (name : List Char) (fallback : Option (List Char)) :
    Except String (List Char) :=
  match env.lookup (String.ofList name), fallback with
  | some value, _ => .ok value.toList
  | none, some text => .ok text
  | none, none => .error (String.ofList name)

/-- Expand the variables of a text, or name the first that has no value. -/
def expandChars (env : Environment) (text : List Char) : Except String (List Char) :=
  match text with
  | [] => .ok []
  | '$' :: '$' :: rest => (expandChars env rest).map ('$' :: ·)
  | '$' :: '\x7b' :: rest =>
    match _h : rest.dropWhile (· != '\x7d') with
    -- a brace that is not closed begins no reference
    | [] => (expandChars env rest).map fun r => '$' :: '\x7b' :: r
    | _ :: after => do
      let (name, fallback) := reference (rest.takeWhile (· != '\x7d'))
      let value ← variableValue env name fallback
      (expandChars env after).map (value ++ ·)
  | '$' :: rest =>
    let name := rest.takeWhile isNameChar
    if name.isEmpty then (expandChars env rest).map ('$' :: ·)
    else do
      let value ← variableValue env name none
      (expandChars env (rest.dropWhile isNameChar)).map (value ++ ·)
  | c :: rest => (expandChars env rest).map (c :: ·)
termination_by text.length
decreasing_by
  · simp only [List.length_cons]; omega
  · simp only [List.length_cons]; omega
  · have h := (List.dropWhile_sublist (l := rest) (· != '\x7d')).length_le
    rw [_h] at h
    simp only [List.length_cons] at h ⊢
    omega
  · simp
  · have h := (List.dropWhile_sublist (l := rest) isNameChar).length_le
    simp only [List.length_cons]
    omega
  · simp

/-- Expand the variables of a text, or name the first that has no value. -/
def expand (env : Environment) (text : String) : Except String String :=
  (expandChars env text.toList).map String.ofList

end Inlay
