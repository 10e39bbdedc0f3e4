/-
Natural numbers in decimal.

`print` writes the digits without leading zeros and `read` reads digits alone, so
`read` undoes `print`; a sign, a blank or a separator between digits is refused.
-/
namespace Foreman.Text.Decimal

/-- The value of a decimal digit. -/
def digit? (c : Char) : Option Nat :=
  if '0' ≤ c ∧ c ≤ '9' then some (c.toNat - '0'.toNat) else none

/-- Appends the digits of the text to a number read so far. -/
def readFrom : Nat → List Char → Option Nat
  | n, [] => some n
  | n, c :: r => (digit? c).bind fun d => readFrom (10 * n + d) r

/-- The number that a non-empty text of digits writes. -/
def read : List Char → Option Nat
  | [] => none
  | s => readFrom 0 s

/-- The number that a text of digits writes, if it is below `bound`. -/
def readBelow (bound : Nat) (s : List Char) : Option Nat :=
  (read s).filter (· < bound)

/-- A number below `bound` after an optional plus sign. -/
def readSigned (bound : Nat) : List Char → Option Nat
  | '+' :: r => readBelow bound r
  | s => readBelow bound s

/-- The decimal digits of a number. -/
def print (n : Nat) : List Char :=
  Nat.toDigits 10 n

/-- An integer: a minus sign where it is negative, and the digits. -/
def printInt : Int → List Char
  | .ofNat n => print n
  | .negSucc n => '-' :: print (n + 1)

end Foreman.Text.Decimal
