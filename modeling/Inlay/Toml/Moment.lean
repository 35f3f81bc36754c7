import Inlay.Toml.Digit

set_option autoImplicit false

/-! # Dates and times

A moment is a date, a time of day, or both, then perhaps with an offset from universal time. It is
read with the leniency of the format and written in one way: a `T` before the time, `Z` for
universal time, and a fraction of at most nine digits that ends in no zero but its only one.
-/

namespace Inlay.Toml

/-- A day of the calendar. -/
structure Date where
  year : Nat
  month : Nat
  day : Nat
  deriving DecidableEq, Repr

/-- The seconds of a time of day. -/
structure Seconds where
  whole : Nat
  /-- The fraction in billionths, if one is given; what is finer is dropped. -/
  billionths : Option Nat := none
  deriving DecidableEq, Repr

/-- A time of day, which may do without seconds. -/
structure Time where
  hour : Nat
  minute : Nat
  seconds : Option Seconds := none
  deriving DecidableEq, Repr

/-- An offset from universal time. -/
inductive Offset where
  | zero
  | minutes (west : Bool) (count : Nat)
  deriving DecidableEq, Repr

/-- A date, a time of day, or both. -/
inductive Moment where
  | date (d : Date)
  | time (t : Time)
  | both (d : Date) (t : Time) (offset : Option Offset)
  deriving DecidableEq, Repr

/-! ## Writing -/

/-- The digits of a number with zeros before them up to a width. -/
def paddedDigits (width n : Nat) : List Char :=
  let digits := Nat.toDigits 10 n
  List.replicate (width - digits.length) '0' ++ digits

/-- A number with zeros before it up to a width. -/
def padded (width n : Nat) : String := String.ofList (paddedDigits width n)

/-- A fraction in billionths without the zeros at its end. -/
def fractionText (billionths : Nat) : String :=
  match ((paddedDigits 9 billionths).reverse.dropWhile (· == '0')).reverse with
  | [] => "0"
  | digits => String.ofList digits

/-- A date as it is written. -/
def Date.text (d : Date) : String :=
  padded 4 d.year ++ "-" ++ padded 2 d.month ++ "-" ++ padded 2 d.day

/-- Seconds as they are written after the minutes. -/
def Seconds.text (s : Seconds) : String :=
  ":" ++ padded 2 s.whole ++
    match s.billionths with
    | some n => "." ++ fractionText n
    | none => ""

/-- A time of day as it is written. -/
def Time.text (t : Time) : String :=
  padded 2 t.hour ++ ":" ++ padded 2 t.minute ++ (t.seconds.map Seconds.text).getD ""

/-- An offset as it is written; one of no minutes counts as east. -/
def Offset.text : Offset → String
  | .zero => "Z"
  | .minutes west count =>
    (if west && count != 0 then "-" else "+") ++ padded 2 (count / 60) ++ ":" ++
      padded 2 (count % 60)

/-- A moment as it is written. -/
def Moment.text : Moment → String
  | .date d => d.text
  | .time t => t.text
  | .both d t offset => d.text ++ "T" ++ t.text ++ (offset.map Offset.text).getD ""

/-! ## Reading -/

/-- Read a number of exactly `count` digits between two bounds: the number and the text after
it. -/
def field? (count least most : Nat) (text : List Char) : Option (Nat × List Char) :=
  let digits := text.take count
  if digits.length = count && digits.all Char.isDigit then
    let n := baseValue 10 digits
    if least ≤ n && n ≤ most then some (n, text.drop count) else none
  else none

/-- The text after an expected character. -/
def after? (c : Char) (text : List Char) : Option (List Char) :=
  match text with
  | d :: rest => if d = c then some rest else none
  | [] => none

/-- The number of days of a month. -/
def daysOf (year month : Nat) : Nat :=
  if month = 2 then
    if year % 4 = 0 && (year % 100 != 0 || year % 400 = 0) then 29 else 28
  else if month = 4 || month = 6 || month = 9 || month = 11 then 30
  else 31

/-- Read a date: the date and the text after it. -/
def date? (text : List Char) : Option (Date × List Char) := do
  let (year, rest) ← field? 4 0 9999 text
  let (month, rest) ← field? 2 1 12 (← after? '-' rest)
  let (day, rest) ← field? 2 1 (daysOf year month) (← after? '-' rest)
  some (⟨year, month, day⟩, rest)

/-- Read seconds, of which a minute may have sixty-one: the seconds and the text after them. -/
def seconds? (text : List Char) : Option (Seconds × List Char) := do
  let (whole, rest) ← field? 2 0 60 text
  match rest with
  | '.' :: rest =>
    let digits := rest.takeWhile Char.isDigit
    let finest := digits.take 9
    if digits.isEmpty then none
    else
      let n := baseValue 10 (finest ++ List.replicate (9 - finest.length) '0')
      some (⟨whole, some n⟩, rest.dropWhile Char.isDigit)
  | rest => some (⟨whole, none⟩, rest)

/-- Read a time of day: the time and the text after it. -/
def time? (text : List Char) : Option (Time × List Char) := do
  let (hour, rest) ← field? 2 0 23 text
  let (minute, rest) ← field? 2 0 59 (← after? ':' rest)
  match rest with
  | ':' :: rest =>
    let (seconds, rest) ← seconds? rest
    some (⟨hour, minute, some seconds⟩, rest)
  | rest => some (⟨hour, minute, none⟩, rest)

/-- Read an offset that is a sign with hours and minutes. -/
def minutesOffset? (west : Bool) (text : List Char) : Option Offset := do
  let (hours, rest) ← field? 2 0 23 text
  let (minutes, rest) ← field? 2 0 59 (← after? ':' rest)
  if rest.isEmpty then some (.minutes west (60 * hours + minutes)) else none

/-- Read what may fill the rest of a moment after its time. -/
def offset? (text : List Char) : Option (Option Offset) :=
  match text with
  | [] => some none
  | ['Z'] | ['z'] => some (some .zero)
  | '+' :: rest => (minutesOffset? false rest).map some
  | '-' :: rest => (minutesOffset? true rest).map some
  | _ => none

/-- Whether a character may stand between a date and a time. -/
def dividesMoment (c : Char) : Bool := c == 'T' || c == 't' || c == ' '

/-- Read a moment that is a whole text. -/
def moment? (text : List Char) : Option Moment :=
  match date? text with
  | some (d, []) => some (.date d)
  | some (d, c :: rest) => do
    let (t, rest) ← if dividesMoment c then time? rest else none
    some (.both d t (← offset? rest))
  | none =>
    match time? text with
    | some (t, []) => some (.time t)
    | _ => none

end Inlay.Toml
