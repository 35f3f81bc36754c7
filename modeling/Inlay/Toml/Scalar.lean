import Inlay.Number.Reading
import Inlay.Toml.Value

set_option autoImplicit false

/-! # TOML scalars without quotes

Booleans, integers, floats and moments. An integer in another base than ten has no sign, and a
float beyond the largest finite number is no value.
-/

namespace Inlay.Toml

/-! ## Numbers -/

/-- The value of a run of digits in a base, if it fits in 128 bits. -/
def natural? (base : Nat) (isDigit : Char → Bool) (text : List Char) : Option Nat := do
  let n := baseValue base (← digitRun? isDigit text)
  if n < Nat.pow 2 128 then some n else none

/-- Read an integer: of 128 bits, with its sign counted among them if it is negative. -/
def integer? (text : List Char) : Option Int :=
  match text with
  | '0' :: 'x' :: digits => (natural? 16 isHexDigit digits).map Int.ofNat
  | '0' :: 'o' :: digits => (natural? 8 (fun c => '0' ≤ c && c ≤ '7') digits).map Int.ofNat
  | '0' :: 'b' :: digits => (natural? 2 (fun c => c == '0' || c == '1') digits).map Int.ofNat
  | _ => do
    let (negative, digits) := Binary64.takeSign text
    let n := baseValue 10 (← decimalRun? digits)
    if negative then (if n ≤ Nat.pow 2 127 then some (-(n : Int)) else none)
    else if n < Nat.pow 2 128 then some n
    else none

/-- Whether a character belongs to a run of decimal digits. -/
def isRunChar (c : Char) : Bool := c.isDigit || c == '_'

/-- The digits after the point of a float, and the text after them. -/
def fraction? (text : List Char) : Option (List Char × List Char) :=
  match text with
  | '.' :: rest =>
    (digitRun? Char.isDigit (rest.takeWhile isRunChar)).map fun digits =>
      (digits, rest.dropWhile isRunChar)
  | rest => some ([], rest)

/-- The exponent that fills the rest of a float. -/
def exponent? (text : List Char) : Option Int :=
  match text with
  | [] => some 0
  | c :: rest =>
    if c == 'e' || c == 'E' then
      let (negative, digits) := Binary64.takeSign rest
      (digitRun? Char.isDigit digits).map fun digits =>
        if negative then -(baseValue 10 digits : Int) else baseValue 10 digits
    else none

/-- A number that is finite. -/
def finite? : Binary64 → Option Binary64
  | .finite s m e => some (.finite s m e)
  | _ => none

/-- Read a float. -/
def float? (text : List Char) : Option Binary64 :=
  let (negative, rest) := Binary64.takeSign text
  if rest = "inf".toList then some (.infinite negative)
  else if rest = "nan".toList then some .nan
  else do
    let whole ← decimalRun? (rest.takeWhile isRunChar)
    let (fraction, rest) ← fraction? (rest.dropWhile isRunChar)
    if fraction.isEmpty && rest.isEmpty then none
    else
      let power ← exponent? rest
      finite? (.ofDecimal negative (baseValue 10 (whole ++ fraction)) (power - fraction.length))

/-! ## Scalars -/

/-- Read a scalar without quotes. -/
def scalar? (text : List Char) : Option Value :=
  if text = "true".toList then some (.boolean true)
  else if text = "false".toList then some (.boolean false)
  else match integer? text, float? text with
    | some i, _ => some (.integer i)
    | none, some x => some (.float x)
    | none, none => (moment? text).map .moment

end Inlay.Toml
