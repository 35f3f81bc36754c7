import Inlay.Number.Binary64

set_option autoImplicit false

/-! # Reading numbers

Decimal texts of natural numbers and of floating-point numbers. A floating-point text is an
optional sign and either a word for a number without digits, in any case of its letters, or digits
with at most one point among or beside them and an optional exponent.
-/

namespace Inlay

/-- The value of a run of decimal digits; nothing if another character stands among them. -/
def digitsValue? (digits : List Char) : Option Nat :=
  digits.foldl (fun value c => value.bind fun v =>
    if c.isDigit then some (10 * v + (c.toNat - '0'.toNat)) else none) (some 0)

/-- Why a text is no natural number of 64 bits. -/
inductive NaturalFault where
  | empty
  | notADigit
  | tooLarge
  deriving DecidableEq, Repr

/-- The wording of a fault. -/
def NaturalFault.message : NaturalFault → String
  | .empty => "cannot parse integer from empty string"
  | .notADigit => "invalid digit found in string"
  | .tooLarge => "number too large to fit in target type"

/-- Read a natural number below `2 ^ 64`, with an optional plus sign. -/
def readNatural64 (s : String) : Except NaturalFault Nat :=
  match s.toList with
  | [] => .error .empty
  | c :: rest =>
    let digits := if c = '+' && !rest.isEmpty then rest else c :: rest
    match digitsValue? digits with
    | none => .error .notADigit
    | some n => if n < Nat.pow 2 64 then .ok n else .error .tooLarge

namespace Binary64

/-- Split off a leading sign; `true` for a minus. -/
def takeSign : List Char → Bool × List Char
  | '-' :: rest => (true, rest)
  | '+' :: rest => (false, rest)
  | rest => (false, rest)

/-- Read an optional exponent that fills the rest of a text. -/
def readExponent? : List Char → Option Int
  | [] => some 0
  | c :: rest =>
    if c = 'e' || c = 'E' then
      let (negative, digits) := takeSign rest
      if digits.isEmpty then none
      else (digitsValue? digits).map fun n => if negative then -(n : Int) else n
    else none

/-- Read digits, with at most one point, and an optional exponent: the digits as one natural number
and the power of ten of the last of them. -/
def readDigits? (text : List Char) : Option (Nat × Int) :=
  let whole := text.takeWhile Char.isDigit
  let rest := text.dropWhile Char.isDigit
  let (fraction, rest) := match rest with
    | '.' :: rest => (rest.takeWhile Char.isDigit, rest.dropWhile Char.isDigit)
    | rest => ([], rest)
  if whole.isEmpty && fraction.isEmpty then none
  else do
    let power ← readExponent? rest
    let digits ← digitsValue? (whole ++ fraction)
    some (digits, power - fraction.length)

/-- Read the text of a floating-point number. -/
def ofText? (s : String) : Option Binary64 :=
  let (negative, rest) := takeSign s.toList
  let word := rest.map Char.toLower
  if word = "nan".toList then some .nan
  else if word = "inf".toList || word = "infinity".toList then some (.infinite negative)
  else (readDigits? rest).map fun (digits, power) => ofDecimal negative digits power

end Binary64

end Inlay
