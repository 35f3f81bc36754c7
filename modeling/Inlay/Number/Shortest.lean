import Inlay.Number.Binary64

set_option autoImplicit false

/-! # Shortest decimal text

A finite number is written by the fewest decimal digits that are still read back as that number;
of several such decimals by the one nearest to it, and of two equally near ones by the greater.
The digits are written positionally, whatever the exponent, and without a point where no digit
follows it.

The decimals that are read back as `m * 2 ^ e` are those of its rounding interval, whose ends lie
half way to the neighbouring numbers and belong to it when the mantissa is even. All comparisons
are made between natural numbers over one common denominator.
-/

namespace Inlay

namespace Binary64

/-- The decimals read back as one number: those between `low / den` and `high / den`, ends
included or not; `value / den` is the number itself. -/
structure RoundingInterval where
  low : Nat
  value : Nat
  high : Nat
  den : Nat
  closed : Bool
  deriving Repr

/-- The rounding interval of `m * 2 ^ e`. The lower neighbour of a power of two is only half as far
away as the upper one, unless the number has the least exponent. -/
def roundingInterval (m : Nat) (e : Int) : RoundingInterval :=
  let below := if m = Nat.pow 2 52 && e != -1074 then 1 else 2
  let up := Nat.pow 2 (e - 2).toNat
  let den := Nat.pow 2 (2 - e).toNat
  { low := (4 * m - below) * up, value := 4 * m * up, high := (4 * m + 2) * up, den
    closed := m % 2 == 0 }

namespace RoundingInterval

/-- Whether `digits * 10 ^ power` is read back as the number. -/
def holds (r : RoundingInterval) (digits : Nat) (power : Int) : Bool :=
  let d := digits * Nat.pow 10 power.toNat * r.den
  let scale := Nat.pow 10 (-power).toNat
  if r.closed then r.low * scale ≤ d && d ≤ r.high * scale
  else r.low * scale < d && d < r.high * scale

/-- The greatest `digits` such that `digits * 10 ^ power` does not exceed the number. -/
def floorAt (r : RoundingInterval) (power : Int) : Nat :=
  r.value * Nat.pow 10 (-power).toNat / (r.den * Nat.pow 10 power.toNat)

/-- The multiple of `10 ^ power` that stands for the number, if one of its two neighbours among
them is read back as the number. -/
def digitsAt? (r : RoundingInterval) (power : Int) : Option Nat :=
  let low := r.floorAt power
  match r.holds low power && low != 0, r.holds (low + 1) power with
  | true, true =>
    -- twice the distance from `low` against one step of the grid
    let step := r.den * Nat.pow 10 power.toNat
    let excess := r.value * Nat.pow 10 (-power).toNat - low * step
    if 2 * excess < step then some low else some (low + 1)
  | true, false => some low
  | false, true => some (low + 1)
  | false, false => none

/-- The first of the grids `10 ^ power`, from the given one on to finer ones, that holds a decimal
read back as the number. -/
def search (r : RoundingInterval) : (grids : Nat) → (power : Int) → Option (Nat × Int)
  | 0, _ => none
  | grids + 1, power =>
    match r.digitsAt? power with
    | some digits => some (digits, power)
    | none => r.search grids (power - 1)

/-- The power of ten of the leading digit of the number, or one more. -/
def leadingPower (r : RoundingInterval) : Int :=
  let whole := r.value / r.den
  if whole = 0 then
    -- a number below one: count the zeros after the point
    1 - ((r.den / r.value).log2 : Int) * 30103 / 100000
  else (Nat.toDigits 10 whole).length

end RoundingInterval

/-- The fewest digits that are read back as `m * 2 ^ e`, and the power of ten they stand at. Twenty
grids suffice, as the estimate is at most two above the leading digit and seventeen digits always
do. -/
def shortest (m : Nat) (e : Int) : Nat × Int :=
  let r := roundingInterval m e
  (r.search 20 r.leadingPower).getD (r.value / r.den, 0)

/-- The digits of `digits * 10 ^ power`, positionally. -/
def positional (digits : Nat) (power : Int) : List Char :=
  let shown := Nat.toDigits 10 digits
  if 0 ≤ power then shown ++ List.replicate power.toNat '0'
  else
    let places := (-power).toNat
    if places < shown.length then
      shown.take (shown.length - places) ++ ['.'] ++ shown.drop (shown.length - places)
    else ['0', '.'] ++ List.replicate (places - shown.length) '0' ++ shown

/-- The text of a number: the shortest digits, a minus sign before a negative number and a negative
zero, and words for the numbers without digits. -/
def text : Binary64 → String
  | .nan => "NaN"
  | .infinite negative => if negative then "-inf" else "inf"
  | .finite negative m e =>
    let digits := if m = 0 then ['0'] else
      let (digits, power) := shortest m e
      positional digits power
    String.ofList ((if negative then ['-'] else []) ++ digits)

end Binary64

end Inlay
