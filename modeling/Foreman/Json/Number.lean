/-
Which numbers fit a double.

A lexeme stands for a significand times a power of ten.  The significand keeps
the leading digits that fit sixty-four bits; the power counts the digits that
were dropped.  The number fits unless the product of the two, each rounded to a
double, is beyond the largest double.
-/
import Foreman.Json.Token

namespace Foreman.Json

open Text

/-- The nearest number with at most fifty-three significant bits, ties to even. -/
def roundToDouble (n : Nat) : Nat :=
  let drop := Nat.log2 n - 52
  let unit := Nat.pow 2 drop
  let low := n / unit
  let rest := 2 * (n % unit)
  if rest > unit ∨ (rest = unit ∧ low % 2 = 1) then (low + 1) * unit else low * unit

/-- The halfway point between the largest double and the next power of two. -/
def doubleBound : Nat := Nat.pow 2 1024 - Nat.pow 2 970

/-- A significand below `2 ^ 64` and a power of ten. -/
structure Scaled where
  significand : Nat
  exponent : Int
deriving DecidableEq

namespace Scaled

/-- A non-negative number times a power of ten fits a double. -/
def fits (x : Scaled) : Bool :=
  if x.significand = 0 ∨ x.exponent < 0 then true
  else if x.exponent > 308 then false
  else decide (roundToDouble x.significand * roundToDouble (Nat.pow 10 x.exponent.toNat) < doubleBound)

/-- Another digit fits behind the significand. -/
def hasRoom (x : Scaled) (d : Nat) : Bool :=
  x.significand * 10 + d < Nat.pow 2 64

/-- Reads the digits of the integer part. -/
def integerPart (x : Scaled) : List Char → Scaled
  | [] => x
  | c :: r =>
    let d := (Decimal.digit? c).getD 0
    if x.exponent = 0 ∧ x.hasRoom d then integerPart ⟨x.significand * 10 + d, 0⟩ r
    else integerPart ⟨x.significand, x.exponent + 1⟩ r

/-- Reads the digits of the fraction; from the first that does not fit on they are dropped. -/
def fractionPart (x : Scaled) : List Char → Scaled
  | [] => x
  | c :: r =>
    let d := (Decimal.digit? c).getD 0
    if x.hasRoom d then fractionPart ⟨x.significand * 10 + d, x.exponent - 1⟩ r else x

end Scaled

/-- The least number that no exponent may reach. -/
def exponentBound : Nat := Nat.pow 2 31

/-- The digits at the front of a text. -/
def leadingDigits (s : List Char) : List Char :=
  s.takeWhile Char.isDigit

/-- A number with an exponent fits a double: an exponent beyond every bound decides by
its sign alone. -/
def fitsWithExponent (x : Scaled) (negative : Bool) (digits : List Char) : Bool :=
  let e := (Decimal.read digits).getD 0
  if e ≥ exponentBound then x.significand = 0 || negative
  else { x with exponent := if negative then x.exponent - e else x.exponent + e : Scaled }.fits

/-- A lexeme without its sign fits a double. -/
def magnitudeFits (s : List Char) : Bool :=
  let whole := Scaled.integerPart ⟨0, 0⟩ (leadingDigits s)
  let afterWhole := afterDigits s
  let (x, rest) :=
    match afterWhole with
    | '.' :: r => (whole.fractionPart (leadingDigits r), afterDigits r)
    | r => (whole, r)
  match rest with
  | [] => x.fits
  | _ :: '-' :: r => fitsWithExponent x true r
  | _ :: '+' :: r => fitsWithExponent x false r
  | _ :: r => fitsWithExponent x false r

/-- A lexeme writes a number that fits a double. -/
def numberFits : List Char → Bool
  | '-' :: r => magnitudeFits r
  | s => magnitudeFits s

end Foreman.Json
