import Inlay.Encoding
import Inlay.Toml.Text
import Inlay.Toml.Tree

set_option autoImplicit false

/-! # Reading TOML

A document is a sequence of lines: headers of tables, assignments, comments and empty lines. Lists
and inline tables may span lines, and line breaks and comments may stand anywhere in them but
inside a key. Values are nested at most `deepest` levels deep. A reader answers
with what it read and with the text after it, or with nothing where the text is malformed.
-/

namespace Inlay.Toml

/-! ## Blanks, comments and keys -/

/-- The text after its blanks. -/
def skipSpace (text : List Char) : List Char := text.dropWhile fun c => c == ' ' || c == '\t'

/-- The text after the rest of a line, which may hold a comment. -/
def afterLine? (text : List Char) : Option (List Char) :=
  let text := skipSpace text
  let rest := match text with
    | '#' :: comment => comment.dropWhile isTextChar
    | rest => rest
  if rest.isEmpty then some [] else afterBreak? rest

/-- The text after blanks, line breaks and comments. -/
def skipTrivia? (comment : Bool) : List Char → Option (List Char)
  | [] => some []
  -- a carriage return counts only before a line feed
  | '\r' :: '\n' :: rest => skipTrivia? false rest
  | c :: rest =>
    if c = '\n' then skipTrivia? false rest
    else if comment then (if isTextChar c then skipTrivia? true rest else none)
    else if c = ' ' || c = '\t' then skipTrivia? false rest
    else if c = '#' then skipTrivia? true rest
    else some (c :: rest)

/-- Whether a character may stand in a key without quotes. -/
def isBareChar (c : Char) : Bool := c.isAlphanum || c == '_' || c == '-'

/-- Read one part of a key. -/
def keyPart? (text : List Char) : Option (String × List Char) :=
  match text with
  | '"' :: rest => (basicBody rest).map fun r => (String.ofList r.1, r.2)
  | '\'' :: rest => (literalBody rest).map fun r => (String.ofList r.1, r.2)
  | _ =>
    let bare := text.takeWhile isBareChar
    if bare.isEmpty then none else some (String.ofList bare, text.dropWhile isBareChar)

/-- A key: the path to its table, and its name there. -/
structure DottedKey where
  path : List String
  name : String

/-- Read a key of at most `fuel` parts and the blanks after it. -/
def keyWithin? (fuel : Nat) (text : List Char) : Option (DottedKey × List Char) :=
  match fuel with
  | 0 => none
  | fuel + 1 => do
    let (part, rest) ← keyPart? text
    match skipSpace rest with
    | '.' :: rest =>
      let (key, rest) ← keyWithin? fuel (skipSpace rest)
      some (⟨part :: key.path, key.name⟩, rest)
    | rest => some (⟨[], part⟩, rest)

/-- Read a key; it has fewer parts than the text has characters. -/
def key? (text : List Char) : Option (DottedKey × List Char) := keyWithin? text.length text

/-! ## Values -/

/-- A reader of values. -/
abbrev ValueReader := List Char → Option (Value × List Char)

/-- Read the items of a list up to its end; at most `fuel` of them. -/
def items? (value? : ValueReader) (fuel : Nat) (text : List Char) :
    Option (List Value × List Char) :=
  match fuel with
  | 0 => none
  | fuel + 1 => do
    match ← skipTrivia? false text with
    | ']' :: rest => some ([], rest)
    | text =>
      let (v, rest) ← value? text
      match ← skipTrivia? false rest with
      | ',' :: rest =>
        let (others, rest) ← items? value? fuel rest
        some (v :: others, rest)
      | ']' :: rest => some ([v], rest)
      | _ => none

/-- Read a key, an equals sign and a value. What may stand on both sides of the equals sign is
passed over by `gap?`. -/
def assignment? (gap? : List Char → Option (List Char)) (value? : ValueReader)
    (text : List Char) : Option (DottedKey × Value × List Char) := do
  let (key, rest) ← key? text
  let rest ← after? '=' (← gap? rest)
  let (v, rest) ← value? (← gap? rest)
  some (key, v, rest)

/-- Read the entries of an inline table up to its end and add them to a table; at most `fuel` of
them. -/
def entries? (value? : ValueReader) (fuel : Nat) (b : Branch) (text : List Char) :
    Option (Branch × List Char) :=
  match fuel with
  | 0 => none
  | fuel + 1 => do
    match ← skipTrivia? false text with
    | '}' :: rest => some (b, rest)
    | text =>
      let (key, v, rest) ← assignment? (skipTrivia? false) value? text
      let b ← b.assign key.path key.name v
      match ← skipTrivia? false rest with
      | ',' :: rest => entries? value? fuel b rest
      | '}' :: rest => some (b, rest)
      | _ => none

/-- Whether a character belongs to a scalar without quotes. -/
def isScalarChar (c : Char) : Bool :=
  !(c == ' ' || c == '\t' || c == '\n' || c == '\r' || c == ',' || c == ']' || c == '}' ||
    c == '#')

/-- Read a scalar without quotes. A single blank may stand between a date and a time. -/
def bareScalar? (text : List Char) : Option (Value × List Char) :=
  let word := text.takeWhile isScalarChar
  let rest := text.dropWhile isScalarChar
  match rest with
  | ' ' :: c :: more =>
    -- after a date alone, a blank and a digit begin its time
    if ((date? word).any fun d => d.2.isEmpty) && c.isDigit then
      (scalar? (word ++ ' ' :: (c :: more).takeWhile isScalarChar)).map
        fun v => (v, (c :: more).dropWhile isScalarChar)
    else (scalar? word).map fun v => (v, rest)
  | _ => (scalar? word).map fun v => (v, rest)

/-- Read a value with at most `depth` levels of lists and inline tables. -/
def valueWithin? (depth : Nat) (text : List Char) : Option (Value × List Char) :=
  match text, depth with
  | '[' :: rest, depth + 1 =>
    (items? (valueWithin? depth) text.length rest).map fun r => (.list r.1, r.2)
  | '\x7b' :: rest, depth + 1 =>
    (entries? (valueWithin? depth) text.length [] rest).map
      fun r => (.table (finishBranch r.1), r.2)
  | '[' :: _, 0 => none
  | '\x7b' :: _, 0 => none
  | '"' :: _, _ => (text? text).map fun r => (.text r.1, r.2)
  | '\'' :: _, _ => (text? text).map fun r => (.text r.1, r.2)
  | _, _ => bareScalar? text

/-- How deep values may be nested. -/
def deepest : Nat := 80

/-- Read a value. -/
def value? : ValueReader := valueWithin? deepest

/-! ## Documents -/

/-- One line of a document that says something. -/
inductive Line where
  | table (key : DottedKey)
  | item (key : DottedKey)
  | assignment (key : DottedKey) (v : Value)

/-- Read a line; a line that says nothing is none. -/
def line? (text : List Char) : Option (Option Line × List Char) := do
  match skipSpace text with
  | '[' :: '[' :: rest =>
    let (key, rest) ← key? (skipSpace rest)
    let rest ← after? ']' (← after? ']' rest)
    some (some (.item key), ← afterLine? rest)
  | '[' :: rest =>
    let (key, rest) ← key? (skipSpace rest)
    let rest ← after? ']' rest
    some (some (.table key), ← afterLine? rest)
  | rest =>
    match rest with
    -- no key begins like this, so the line is empty or a comment
    | [] | '#' :: _ | '\n' :: _ | '\r' :: _ => some (none, ← afterLine? rest)
    | _ =>
      let (key, v, rest) ← assignment? (some ∘ skipSpace) value? rest
      some (some (.assignment key v), ← afterLine? rest)

/-- Read at most `fuel` lines. -/
def lines? (fuel : Nat) (text : List Char) : Option (List Line) :=
  match fuel, text with
  | _, [] => some []
  | 0, _ => none
  | fuel + 1, text => do
    let (line, rest) ← line? text
    let others ← lines? fuel rest
    some (line.toList ++ others)

/-- A tree that is being put together, and the path of the header that is in force. -/
structure Draft where
  tree : Branch := []
  header : List String := []

/-- Add a line to a draft. -/
def Draft.add (d : Draft) (line : Line) : Option Draft :=
  match line with
  | .table key =>
    (d.tree.openTable key.path key.name).map fun tree => ⟨tree, key.path ++ [key.name]⟩
  | .item key =>
    (d.tree.openItem key.path key.name).map fun tree => ⟨tree, key.path ++ [key.name]⟩
  | .assignment key v =>
    -- the header is followed as one, and the dotted key from there on as a dotted key
    (Branch.within false (fun _ b => b.assign key.path key.name v) d.header .header d.tree).map
      fun tree => { d with tree }

/-- Read a document: the entries of its outermost table. A byte-order mark at its head is passed
over. -/
def read? (source : String) : Option Entries := do
  let text := match source.toList with
    | c :: rest => if c = byteOrderMark then rest else c :: rest
    | [] => []
  let lines ← lines? text.length text
  let draft ← lines.foldlM Draft.add {}
  some (finishBranch draft.tree)

end Inlay.Toml
