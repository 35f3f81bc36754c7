import Inlay.Text.Printable

set_option autoImplicit false

/-! # Quoted texts

The quoted form of a text shows it unambiguously on one line. Backslash, tab, line feed, carriage
return, null and the enclosing quote are escaped by a backslash; a character without a glyph of
its own is written by its code point, `\u` and the hexadecimal digits in braces.
-/

namespace Inlay

/-- A code point in braces after `\u`, in lower-case hexadecimal digits. -/
def codePointEscape (c : Char) : List Char :=
  ['\\', 'u', '\x7b'] ++ Nat.toDigits 16 c.toNat ++ ['\x7d']

/-- The form of one character inside the quote `quote`. -/
def quotedChar (quote : Char) (c : Char) : List Char :=
  if c = '\x00' then ['\\', '0']
  else if c = '\t' then ['\\', 't']
  else if c = '\n' then ['\\', 'n']
  else if c = '\r' then ['\\', 'r']
  else if c = '\\' || c = quote then ['\\', c]
  else if isPrintable c && !isExtending c then [c]
  else codePointEscape c

/-- A text in double quotes. -/
def quotedText (s : String) : String :=
  String.ofList (['"'] ++ s.toList.flatMap (quotedChar '"') ++ ['"'])

/-- A single character in single quotes. -/
def quotedLetter (c : Char) : String :=
  String.ofList (['\''] ++ quotedChar '\'' c ++ ['\''])

end Inlay
