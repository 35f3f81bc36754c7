set_option autoImplicit false

/-! # Encodings

The two encodings of sources and outputs. In `utf8` the bytes are the text's UTF-8 form; in
`latin1` a byte is the character with its value, so every byte string is a text and only the
characters up to `U+00FF` can be written.
-/

namespace Inlay

/-- The byte-order mark, as it stands at the head of a decoded text. -/
def byteOrderMark : Char := '\ufeff'

/-- An encoding of text as bytes. -/
inductive Encoding where
  | utf8
  | latin1
  deriving DecidableEq, Repr, Inhabited

/-- A name that no encoding has. -/
structure UnknownEncoding where
  name : String
  deriving DecidableEq, Repr

/-- The wording of the fault. -/
def UnknownEncoding.message (e : UnknownEncoding) : String := "unknown encoding: " ++ e.name

namespace Encoding

/-- The name an encoding is shown by. -/
def name : Encoding → String
  | .utf8 => "utf-8"
  | .latin1 => "latin1"

/-- The names an encoding is known by, in lower case. -/
def knownNames : List (String × Encoding) :=
  [("utf-8", .utf8), ("utf8", .utf8), ("latin1", .latin1), ("iso-8859-1", .latin1)]

/-- The encoding with a given name; the case of ASCII letters does not matter. -/
def ofName (name : String) : Except UnknownEncoding Encoding :=
  match knownNames.lookup (String.ofList (name.toList.map Char.toLower)) with
  | some e => .ok e
  | none => .error ⟨name⟩

/-- The character whose code point is the value of a byte. -/
def latin1Char (b : UInt8) : Char := Char.ofNat b.toNat

/-- The byte of a character up to `U+00FF`. -/
def latin1Byte? (c : Char) : Option UInt8 :=
  if c.toNat < 256 then some (UInt8.ofNat c.toNat) else none

/-- The text that a byte string stands for, if it stands for one. -/
def decode (e : Encoding) (bytes : ByteArray) : Option String :=
  match e with
  | .utf8 => String.fromUTF8? bytes
  | .latin1 => some (String.ofList (bytes.toList.map latin1Char))

/-- The bytes of a list of characters, or the first character that has none. -/
def latin1Bytes : List Char → Except Char (List UInt8)
  | [] => .ok []
  | c :: rest =>
    match latin1Byte? c with
    | none => .error c
    | some b => (latin1Bytes rest).map (b :: ·)

/-- The byte string of a text, or the first character that the encoding cannot write. -/
def encode (e : Encoding) (text : String) : Except Char ByteArray :=
  match e with
  | .utf8 => .ok text.toUTF8
  | .latin1 => (latin1Bytes text.toList).map fun bytes => ⟨bytes.toArray⟩

end Encoding

end Inlay
