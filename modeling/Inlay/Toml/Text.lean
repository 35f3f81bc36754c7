import Inlay.Toml.Scalar

set_option autoImplicit false

/-! # TOML texts in quotes

A text stands between double quotes, where a backslash begins an escape, or between single quotes,
where it does not. Between three quotes of a kind it may span lines; a line break right after the
opening quotes is dropped, and up to two quotes may stand before the closing ones.
-/

namespace Inlay.Toml

/-- Whether a character may stand in a line of text or in a comment as it is. -/
def isTextChar (c : Char) : Bool := c == '\t' || (' ' ≤ c && c != '\x7f')

/-! ## Escapes -/

/-- The character of a code point. -/
def charOf? (code : Nat) : Option Char :=
  -- what is left out are the surrogates, which stand for no characters
  if code < 0xD800 || (0xDFFF < code && code < 0x110000) then some (Char.ofNat code) else none

/-- The character written by `count` hexadecimal digits, and the text after them. -/
def hexEscape? (count : Nat) (text : List Char) : Option (Char × List Char) :=
  let digits := text.take count
  if digits.length = count && digits.all isHexDigit then
    (charOf? (baseValue 16 digits)).map fun c => (c, text.drop count)
  else none

/-- The characters written by one letter after a backslash. -/
def letterEscapes : List (Char × Char) :=
  [('b', '\x08'), ('t', '\t'), ('n', '\n'), ('f', '\x0c'), ('r', '\r'), ('e', '\x1b'),
   ('"', '"'), ('\\', '\\')]

/-- The numbers of digits of the hexadecimal escapes, by their letters. -/
def hexLengths : List (Char × Nat) := [('x', 2), ('u', 4), ('U', 8)]

/-- The character of the escape after a backslash, and the text after it. -/
def escape? (text : List Char) : Option (Char × List Char) :=
  match text with
  | [] => none
  | letter :: rest =>
    match letterEscapes.lookup letter, hexLengths.lookup letter with
    | some c, _ => some (c, rest)
    | none, some count => hexEscape? count rest
    | none, none => none

theorem hexEscape?_length {count : Nat} {text rest : List Char} {c : Char}
    (h : hexEscape? count text = some (c, rest)) : rest.length ≤ text.length := by
  unfold hexEscape? at h
  dsimp only at h
  split at h
  · simp only [Option.map_eq_some_iff, Prod.mk.injEq] at h
    obtain ⟨-, -, -, rfl⟩ := h
    simp
  · cases h

theorem escape?_length {text rest : List Char} {c : Char} (h : escape? text = some (c, rest)) :
    rest.length < text.length := by
  unfold escape? at h
  split at h
  · cases h
  · split at h
    · simp only [Option.some.injEq, Prod.mk.injEq] at h
      rw [← h.2]
      simp
    · have := hexEscape?_length h
      simp only [List.length_cons]
      omega
    · cases h

/-! ## Texts of one line -/

/-- Read a text after its opening double quote: its characters and the text after its end. -/
def basicBody (text : List Char) : Option (List Char × List Char) :=
  match text with
  | [] => none
  | c :: rest =>
    if c = '"' then some ([], rest)
    else if c = '\\' then
      match _h : escape? rest with
      | none => none
      | some (d, after) => (basicBody after).map fun r => (d :: r.1, r.2)
    else if isTextChar c then (basicBody rest).map fun r => (c :: r.1, r.2)
    else none
termination_by text.length
decreasing_by
  · have := escape?_length _h
    simp only [List.length_cons]
    omega
  · simp

/-- Read a text after its opening single quote. -/
def literalBody (text : List Char) : Option (List Char × List Char) :=
  let body := text.takeWhile (· != '\'')
  match text.dropWhile (· != '\'') with
  | _ :: rest => if body.all isTextChar then some (body, rest) else none
  | [] => none

/-! ## Texts of several lines -/

/-- The text after a line break. -/
def afterBreak? : List Char → Option (List Char)
  | '\n' :: rest => some rest
  | '\r' :: '\n' :: rest => some rest
  | _ => none

/-- The end of a text at three quotes of its kind, with up to two more before it: the quotes that
belong to the text, and what follows. -/
def closing? (quote : Char) (text : List Char) : Option (List Char × List Char) :=
  let count := min 5 (text.takeWhile (· == quote)).length
  if count < 3 then none else some (List.replicate (count - 3) quote, text.drop count)

/-- The text from its first character that is neither a blank nor a line break. -/
def skipLines : List Char → List Char
  | '\r' :: '\n' :: rest => skipLines rest
  | c :: rest => if c = ' ' || c = '\t' || c = '\n' then skipLines rest else c :: rest
  | [] => []

theorem skipLines_length (text : List Char) : (skipLines text).length ≤ text.length := by
  fun_induction skipLines text with
  | case1 rest ih => simp only [List.length_cons]; omega
  | case2 c rest _ _ ih => simp only [List.length_cons]; omega
  | case3 => exact Nat.le_refl _
  | case4 => exact Nat.le_refl _

/-- What follows the line break after a backslash, blanks before and after it included. -/
def afterJoin? (text : List Char) : Option (List Char) :=
  (afterBreak? (text.dropWhile fun c => c == ' ' || c == '\t')).map skipLines

theorem afterBreak?_length {text rest : List Char} (h : afterBreak? text = some rest) :
    rest.length < text.length := by
  unfold afterBreak? at h
  split at h
  · rw [← Option.some.inj h]
    simp
  · rw [← Option.some.inj h]
    simp only [List.length_cons]
    omega
  · cases h

theorem afterJoin?_length {text rest : List Char} (h : afterJoin? text = some rest) :
    rest.length < text.length := by
  unfold afterJoin? at h
  obtain ⟨after, ha, rfl⟩ := Option.map_eq_some_iff.1 h
  have h₁ := afterBreak?_length ha
  have h₂ := skipLines_length after
  have h₃ := (List.dropWhile_sublist (l := text) fun c => c == ' ' || c == '\t').length_le
  omega

/-- Read a text of several lines after its opening quotes. -/
def blockBody (escapes : Bool) (quote : Char) (text : List Char) :
    Option (List Char × List Char) :=
  match closing? quote text with
  | some r => some r
  | none =>
    match text with
    | [] => none
    | '\r' :: '\n' :: rest =>
      (blockBody escapes quote rest).map fun r => ('\r' :: '\n' :: r.1, r.2)
    | c :: rest =>
      if escapes && c == '\\' then
        -- a backslash before a line break is no escape: it joins the lines
        match _hj : afterJoin? rest with
        | some after => blockBody escapes quote after
        | none =>
          match _he : escape? rest with
          | some (d, after) => (blockBody escapes quote after).map fun r => (d :: r.1, r.2)
          | none => none
      else if c == '\n' || isTextChar c then
        (blockBody escapes quote rest).map fun r => (c :: r.1, r.2)
      else none
termination_by text.length
decreasing_by
  · simp only [List.length_cons]
    omega
  · have := afterJoin?_length _hj
    simp only [List.length_cons]
    omega
  · have := escape?_length _he
    simp only [List.length_cons]
    omega
  · simp

/-- Read a text of several lines, without the line break that may follow its opening quotes. -/
def block (escapes : Bool) (quote : Char) (text : List Char) : Option (List Char × List Char) :=
  blockBody escapes quote ((afterBreak? text).getD text)

/-- Read a text in quotes: the text and what follows it. -/
def text? (source : List Char) : Option (String × List Char) :=
  let r := match source with
    | '"' :: '"' :: '"' :: rest => block true '"' rest
    | '\'' :: '\'' :: '\'' :: rest => block false '\'' rest
    | '"' :: rest => basicBody rest
    | '\'' :: rest => literalBody rest
    | _ => none
  r.map fun r => (String.ofList r.1, r.2)

end Inlay.Toml
