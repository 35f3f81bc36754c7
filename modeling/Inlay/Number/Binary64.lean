set_option autoImplicit false

/-! # Binary floating-point numbers

The numbers of the format binary64, as exact values: a finite number is a sign, a natural
mantissa and a power of two. Every finite number has one canonical form, with a mantissa below
`2 ^ 53` and an exponent of at least `-1074`, as small as the mantissa allows. A ratio of natural
numbers is rounded to the nearest number of the format, of two equally near ones to the one whose
mantissa is even.
-/

namespace Inlay

/-- A number of the format binary64; all payloads of a NaN count as one. -/
inductive Binary64 where
  | nan
  | infinite (negative : Bool)
  | finite (negative : Bool) (mantissa : Nat) (exponent : Int)
  deriving DecidableEq, Repr, Inhabited

namespace Binary64

/-- The zero with the given sign. -/
def zero (negative : Bool) : Binary64 := .finite negative 0 (-1074)

/-- Whether a number is a zero of either sign. -/
def isZero : Binary64 → Bool
  | .finite _ m _ => m == 0
  | _ => false

/-- Whether a value is not a number. -/
def isNaN : Binary64 → Bool
  | .nan => true
  | _ => false

/-- The quotient rounded to the nearest natural number, a half to the even neighbour. -/
def roundedQuotient (num den : Nat) : Nat :=
  let q := num / den
  let r := num % den
  if 2 * r < den then q
  else if den < 2 * r then q + 1
  else q + q % 2

/-- The ratio `num / den` scaled by `2 ^ (-e)`, as a numerator and a denominator. -/
def scaled (num den : Nat) (e : Int) : Nat × Nat :=
  if 0 ≤ e then (num, den * Nat.pow 2 e.toNat) else (num * Nat.pow 2 (-e).toNat, den)

/-- The exponent at which `num / den` is written: the least, of those from `-1074` on, at which the
ratio is below `2 ^ 53`. -/
def exponentOf (num den : Nat) : Int :=
  let estimate : Int := (num.log2 : Int) - (den.log2 : Int) - 53
  let (n, d) := scaled num den estimate
  -- the logarithms are rounded down, so the estimate is right or one too small
  let e := if n < d * Nat.pow 2 53 then estimate else estimate + 1
  max e (-1074)

/-- The number with a mantissa of at most `2 ^ 53` and an exponent, infinite if it is too large. -/
def ofSteps (negative : Bool) (m : Nat) (e : Int) : Binary64 :=
  -- rounding up may have led to the next power of two
  let (m, e) := if m = Nat.pow 2 53 then (Nat.pow 2 52, e + 1) else (m, e)
  if 971 < e then .infinite negative else .finite negative m e

/-- The number nearest to `num / den`, with the given sign. -/
def ofRatio (negative : Bool) (num den : Nat) : Binary64 :=
  if num = 0 then zero negative
  else
    let e := exponentOf num den
    let ratio := scaled num den e
    ofSteps negative (roundedQuotient ratio.1 ratio.2) e

/-- The number nearest to `digits * 10 ^ power`, with the given sign. A magnitude beyond `10 ^ 310`
is infinite and one below `10 ^ (-330)` is zero, so no huge power of ten is ever computed. -/
def ofDecimal (negative : Bool) (digits : Nat) (power : Int) : Binary64 :=
  let size : Int := (Nat.toDigits 10 digits).length + power
  if digits = 0 then zero negative
  else if 310 < size then .infinite negative
  else if size < -330 then zero negative
  else if 0 ≤ power then ofRatio negative (digits * Nat.pow 10 power.toNat) 1
  else ofRatio negative digits (Nat.pow 10 (-power).toNat)

/-- The number nearest to an integer. -/
def ofInt (i : Int) : Binary64 := ofRatio (i < 0) i.natAbs 1

end Binary64

end Inlay
