/-
Hexadecimal digits.  Written in lower case, read in either case.
-/
namespace Foreman.Text.Hex

/-- The value of a hexadecimal digit, in either case. -/
def digit? (c : Char) : Option Nat :=
  if '0' ≤ c ∧ c ≤ '9' then some (c.toNat - '0'.toNat)
  else if 'a' ≤ c ∧ c ≤ 'f' then some (c.toNat - 'a'.toNat + 10)
  else if 'A' ≤ c ∧ c ≤ 'F' then some (c.toNat - 'A'.toNat + 10)
  else none

/-- The lower case digit of a value below sixteen. -/
def digit (n : Nat) : Char :=
  if n < 10 then Char.ofNat ('0'.toNat + n) else Char.ofNat ('a'.toNat + (n - 10))

/-- Appends the digits of the text to a number read so far. -/
def readFrom : Nat → List Char → Option Nat
  | n, [] => some n
  | n, c :: r => (digit? c).bind fun d => readFrom (16 * n + d) r

/-- The number that a non-empty text of hexadecimal digits writes. -/
def read : List Char → Option Nat
  | [] => none
  | s => readFrom 0 s

/-- The last `width` hexadecimal digits of a number, the first one first. -/
def printWidth : Nat → Nat → List Char
  | 0, _ => []
  | width + 1, n => digit (n / Nat.pow 16 width % 16) :: printWidth width n

/-- Two digits for each byte. -/
def ofBytes (bytes : List UInt8) : String :=
  String.ofList (bytes.flatMap fun b => printWidth 2 b.toNat)

/-- The bytes that a text of digit pairs writes. -/
def toBytes? : List Char → Option (List UInt8)
  | [] => some []
  | [_] => none
  | a :: b :: r => do
    let hi ← digit? a
    let lo ← digit? b
    let rest ← toBytes? r
    return UInt8.ofNat (16 * hi + lo) :: rest

/-! ### Digits and their values -/

theorem digit?_digit {n : Nat} (h : n < 16) : digit? (digit n) = some n := by
  revert h
  revert n
  decide

theorem length_printWidth (width n : Nat) : (printWidth width n).length = width := by
  induction width with
  | zero => rfl
  | succ w ih => simp [printWidth, ih]

end Foreman.Text.Hex
