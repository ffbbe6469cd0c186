/-
Module: ClosureVtl.Toml.Scalar
Purpose: Numbers, dates and truth values of TOML.
Main exports:
  Toml.integer, Toml.float, Toml.datetime, Toml.boolean, Toml.scalar
-/
import ClosureVtl.Toml.Lexeme
import ClosureVtl.Toml.Value

namespace ClosureVtl.Toml

open Scan

/-!
Digits of numbers may be grouped by single underscores, each between two digits.
Integers have sixty-four bits.  A decimal number does not begin with a zero
unless that is its only digit before the point.
-/

/-! ### Integers -/

/-- A digit, or one behind an underscore. -/
def groupedDigit (isDigit : Char → Bool) : Scan Char := do
  let _ ← option (char '_')
  satisfy isDigit

/-- Digits, grouped at will. -/
def groupedDigits (isDigit : Char → Bool) : Scan (List Char) := do
  let first ← satisfy isDigit
  let rest ← many (groupedDigit isDigit)
  return first :: rest

/-- Decimal digits that do not begin with a superfluous zero. -/
def wholeDigits : Scan (List Char) :=
  (do
    let first ← satisfy fun c => c.isDigit && c != '0'
    let rest ← many (groupedDigit Char.isDigit)
    return first :: rest) <|>
  (do return [← satisfy Char.isDigit])

/-- A sign: whether it is a minus. -/
def sign : Scan Bool :=
  (do char '-'; return true) <|> (do char '+'; return false)

/-- A sign, which may be missing. -/
def optionalSign : Scan Bool := do
  return (← option sign).getD false

/-- An integer of sixty-four bits. -/
def integerOf (negative : Bool) (magnitude : Nat) : Scan Int := do
  require (magnitude < Nat.pow 2 63 || (negative && magnitude == Nat.pow 2 63))
  return if negative then -(magnitude : Int) else (magnitude : Int)

/-- An integer in a base that is named by a mark. -/
def radixInteger (mark : String) (base : Nat) (isDigit : Char → Bool) : Scan Int := do
  literal mark
  integerOf false (ofDigits base (← groupedDigits isDigit))

/-- A decimal integer. -/
def decimalInteger : Scan Int := do
  let negative ← optionalSign
  integerOf negative (ofDigits 10 (← wholeDigits))

/-- An integer. -/
def integer : Scan Int :=
  radixInteger "0x" 16 isHexDigit <|>
    radixInteger "0o" 8 (fun c => '0' ≤ c && c ≤ '7') <|>
    radixInteger "0b" 2 (fun c => c == '0' || c == '1') <|>
    decimalInteger

/-! ### Numbers with a fraction or an exponent -/

/-- Digits behind a point. -/
def fractionDigits : Scan (List Char) := do
  char '.'
  groupedDigits Char.isDigit

/-- An exponent of ten. -/
def exponent : Scan Int := do
  let _ ← satisfy fun c => c == 'e' || c == 'E'
  let negative ← optionalSign
  let digits ← groupedDigits Char.isDigit
  let magnitude : Int := ofDigits 10 digits
  return if negative then -magnitude else magnitude

/-- Numbers from here on read as infinite: halfway between the largest double and
the next power of two. -/
def overflowBound : Nat := Nat.pow 2 1024 - Nat.pow 2 970

/-- Whether `digits * 10 ^ power` reads as infinite.  The number of digits before
the point decides, unless it is that of the bound. -/
def overflows (digits : List Char) (power : Int) : Bool :=
  let significant := digits.dropWhile (· == '0')
  let places := (significant.length : Int) + power
  let boundPlaces := ((Nat.toDigits 10 overflowBound).length : Int)
  if significant.isEmpty || places < boundPlaces then false
  else if boundPlaces < places then true
  else
    match power with
    | .ofNat p => overflowBound ≤ ofDigits 10 significant * Nat.pow 10 p
    | .negSucc p => overflowBound * Nat.pow 10 (p + 1) ≤ ofDigits 10 significant

/-- A decimal number with a fraction, an exponent or both.  A positive one must
not be infinite. -/
def decimalFloat : Scan Unit := do
  let negative ← optionalSign
  let whole ← wholeDigits
  let (fraction, power) ←
    (do return ([], ← exponent)) <|>
      (do
        let fraction ← fractionDigits
        let power ← option exponent
        return (fraction, power.getD 0))
  require (negative || !overflows (whole ++ fraction) (power - fraction.length))

/-- An infinity or NaN. -/
def specialFloat : Scan Unit := do
  let _ ← optionalSign
  literal "inf" <|> literal "nan"

/-- A number with a fraction or an exponent. -/
def float : Scan Unit := decimalFloat <|> specialFloat

/-! ### Dates and times -/

/-- A number of so many digits within bounds. -/
def bounded (digits low high : Nat) : Scan Nat := do
  let n := ofDigits 10 (← exactly Char.isDigit digits)
  require (low ≤ n && n ≤ high)
  return n

/-- Whether a year has a leap day. -/
def isLeapYear (year : Nat) : Bool :=
  year % 4 == 0 && (year % 100 != 0 || year % 400 == 0)

/-- The number of days of a month. -/
def daysInMonth (year month : Nat) : Nat :=
  if month == 2 then (if isLeapYear year then 29 else 28)
  else if [4, 6, 9, 11].contains month then 30
  else 31

/-- A day that exists. -/
def date : Scan Unit := do
  let year ← bounded 4 0 9999
  char '-'
  let month ← bounded 2 1 12
  char '-'
  let day ← bounded 2 1 31
  require (day ≤ daysInMonth year month)

/-- A time of day; a minute may have a leap second. -/
def time : Scan Unit := do
  let _ ← bounded 2 0 23
  char ':'
  let _ ← bounded 2 0 59
  char ':'
  let _ ← bounded 2 0 60
  let _ ← option (do char '.'; takeWhile1 Char.isDigit)

/-- A distance from universal time. -/
def offset : Scan Unit :=
  (do let _ ← satisfy fun c => c == 'Z' || c == 'z') <|>
  (do
    let _ ← sign
    let _ ← bounded 2 0 23
    char ':'
    let _ ← bounded 2 0 59)

/-- What stands between a date and a time. -/
def isTimeMark (c : Char) : Bool := c == 'T' || c == 't' || c == ' '

/-- A date, a time, or both with or without an offset. -/
def datetime : Scan Unit :=
  (do
    date
    let _ ← option (do let _ ← satisfy isTimeMark; time; option offset)) <|>
  time

/-! ### Scalars -/

/-- A truth value. -/
def boolean : Scan Bool :=
  (do literal "true"; return true) <|> (do literal "false"; return false)

/-- A value that has no parts. -/
def scalar : Scan Value :=
  (Value.string <$> anyString) <|>
    (do datetime; return .datetime) <|>
    (do float; return .float) <|>
    (Value.integer <$> integer) <|>
    (Value.boolean <$> boolean)

end ClosureVtl.Toml
