/-
What an unquoted TOML value is: a truth value, an integer, a float, or a date or
a time.

Integers keep their value.  Of floats and of dates and times it is only known
that they are well formed.
-/
import Foreman.Text.Decimal
import Foreman.Text.Hex
import Foreman.Text.Split

namespace Foreman.Toml

open Text

/-- An unquoted value. -/
inductive Scalar where
  | bool (b : Bool)
  | integer (n : Int)
  | float
  | moment
deriving DecidableEq

/-! ### Digits -/

/-- Digits with single underscores between them, taken out. -/
def plainDigits (isDigit : Char → Bool) : List Char → Option (List Char)
  | [] => none
  | [c] => if isDigit c then some [c] else none
  | c :: '_' :: r =>
    if isDigit c then (plainDigits isDigit r).map (c :: ·) else none
  | c :: d :: r =>
    if isDigit c then (plainDigits isDigit (d :: r)).map (c :: ·) else none

/-- The digits of a decimal number: no zero leads others. -/
def decimalDigits (s : List Char) : Option (List Char) :=
  (plainDigits Char.isDigit s).filter fun ds => ds.length = 1 || ds.head? != some '0'

/-- The value of digits in a base. -/
def valueIn (base : Nat) (digits : List Char) : Nat :=
  digits.foldl (fun n c => base * n + (Hex.digit? c).getD 0) 0

/-- The value of digits in a base, underscores allowed. -/
def readIn (base : Nat) (s : List Char) : Option Int :=
  (plainDigits (fun c => (Hex.digit? c).any (· < base)) s).map fun ds => (valueIn base ds : Int)

/-- The sign and what follows it; no sign is a plus. -/
def signOf : List Char → Bool × List Char
  | '-' :: r => (true, r)
  | '+' :: r => (false, r)
  | s => (false, s)

/-- The integer that a text writes: decimal with an optional sign, or in base sixteen,
eight or two. -/
def readInteger (s : List Char) : Option Int :=
  match s with
  | '0' :: 'x' :: r => readIn 16 r
  | '0' :: 'o' :: r => readIn 8 r
  | '0' :: 'b' :: r => readIn 2 r
  | _ =>
    let (negative, digits) := signOf s
    (decimalDigits digits).map fun ds =>
      let n : Int := valueIn 10 ds
      if negative then -n else n

/-! ### Floats -/

/-- Exponents are looked at up to here; no text has as many digits. -/
def exponentLimit : Nat := 1000000

/-- A whole number times ten to the power of `exponent` is below the halfway point between
the largest double and the next power of two. -/
def isFinite (n : Nat) (exponent : Int) : Bool :=
  let bound := Nat.pow 2 1024 - Nat.pow 2 970
  match exponent with
  | .ofNat e => n = 0 || (e ≤ 400 && n * Nat.pow 10 e < bound)
  | .negSucc e => n < bound || n < bound * Nat.pow 10 (e + 1)

/-- The text is a float: a decimal number with a fraction, an exponent or both that
fits a double, or infinity, or not a number. -/
def isFloat (s : List Char) : Bool :=
  let (_, s) := signOf s
  if s = "inf".toList ∨ s = "nan".toList then true
  else
    let (mantissa, exponent) :=
      match cutFirst 'e' (s.map Char.toLower) with
      | some (m, e) => (m, some e)
      | none => (s, none)
    let (whole, fraction) :=
      match cutFirst '.' mantissa with
      | some (w, f) => (w, some f)
      | none => (mantissa, none)
    if exponent.isNone && fraction.isNone then false
    else
      let fractionDigits := (fraction.map (plainDigits Char.isDigit)).getD (some [])
      let exponentValue :=
        match exponent with
        | none => some (0 : Int)
        | some e =>
          let (negative, ds) := signOf e
          (plainDigits Char.isDigit ds).map fun ds =>
            let n : Int := min (valueIn 10 ds) exponentLimit
            if negative then -n else n
      match decimalDigits whole, fractionDigits, exponentValue with
      | some w, some f, some e => isFinite (valueIn 10 (w ++ f)) (e - f.length)
      | _, _, _ => false

/-! ### Dates and times -/

/-- The value of exactly `n` digits. -/
def fixedDigits (n : Nat) (s : List Char) : Option Nat :=
  if s.length = n then Decimal.read s else none

/-- The number of days of a month. -/
def daysIn (year month : Nat) : Nat :=
  if month = 2 then
    if year % 4 = 0 ∧ (year % 100 ≠ 0 ∨ year % 400 = 0) then 29 else 28
  else if month ∈ [4, 6, 9, 11] then 30
  else 31

/-- A day of the calendar: year, month and day joined by hyphens. -/
def isDate (s : List Char) : Bool :=
  match splitChars '-' s with
  | [y, m, d] =>
    match fixedDigits 4 y, fixedDigits 2 m, fixedDigits 2 d with
    | some y, some m, some d => 1 ≤ m && m ≤ 12 && 1 ≤ d && d ≤ daysIn y m
    | _, _, _ => false
  | _ => false

/-- Hours and minutes within their bounds. -/
def isClock (h m : List Char) : Bool :=
  (fixedDigits 2 h).any (· < 24) && (fixedDigits 2 m).any (· < 60)

/-- Seconds with an optional fraction. -/
def isSeconds (s : List Char) : Bool :=
  match cutFirst '.' s with
  | some (whole, fraction) =>
    (fixedDigits 2 whole).any (· ≤ 60) && !fraction.isEmpty && fraction.all Char.isDigit
  | none => (fixedDigits 2 s).any (· ≤ 60)

/-- A time of day, seconds optional. -/
def isTime (s : List Char) : Bool :=
  match splitChars ':' s with
  | [h, m] => isClock h m
  | [h, m, sec] => isClock h m && isSeconds sec
  | _ => false

/-- A distance from universal time. -/
def isOffset (s : List Char) : Bool :=
  match splitChars ':' s with
  | [h, m] => isClock h m
  | _ => false

/-- A time of day with an optional zone. -/
def isZonedTime (s : List Char) : Bool :=
  isTime s ||
    match s.reverse with
    | 'Z' :: r => isTime r.reverse
    | 'z' :: r => isTime r.reverse
    | _ =>
      match cutLast '+' s, cutLast '-' s with
      | some (t, offset), _ => isTime t && isOffset offset
      | _, some (t, offset) => isTime t && isOffset offset
      | _, _ => false

/-- A date, a time, or a date and a time with a `T` or a blank between them. -/
def isMoment (s : List Char) : Bool :=
  isDate s || isTime s ||
    (isDate (s.take 10) &&
      match s.drop 10 with
      | c :: r => (c == 'T' || c == 't' || c == ' ') && isZonedTime r
      | [] => false)

/-- The value that an unquoted text writes. -/
def Scalar.read (s : List Char) : Option Scalar :=
  if s = "true".toList then some (.bool true)
  else if s = "false".toList then some (.bool false)
  else match readInteger s with
    | some n => some (.integer n)
    | none => if isFloat s then some .float else if isMoment s then some .moment else none

end Foreman.Toml
