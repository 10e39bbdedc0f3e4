/-
Bytes and the characters they write in UTF-8.

A sequence of bytes is read as a list of units.  A unit is a character, or `none`
for a byte that belongs to no well-formed character; the bytes of ASCII are
characters wherever they stand, so a stray byte never swallows a delimiter.
-/
namespace Foreman.Text

/-- The bytes of a text in UTF-8. -/
def utf8 (s : String) : List UInt8 :=
  s.toUTF8.toList

/-- The character with this code point, unless it is a surrogate or out of range. -/
def scalar? (n : Nat) : Option Char :=
  if n.isValidChar then some (Char.ofNat n) else none

/-- The low six bits of a continuation byte. -/
def continuation? (b : UInt8) : Option Nat :=
  if 0x80 ≤ b.toNat ∧ b.toNat < 0xc0 then some (b.toNat - 0x80) else none

/-- The character that a byte begins, with the number of bytes it takes after it. -/
def charAt? (b : UInt8) (rest : List UInt8) : Option (Char × Nat) :=
  let n := b.toNat
  if n < 0x80 then some (Char.ofNat n, 0)
  else if 0xc2 ≤ n ∧ n < 0xe0 then
    match rest with
    | b1 :: _ => do
      let x ← continuation? b1
      let c ← scalar? ((n - 0xc0) * 64 + x)
      return (c, 1)
    | _ => none
  else if 0xe0 ≤ n ∧ n < 0xf0 then
    match rest with
    | b1 :: b2 :: _ => do
      let x ← continuation? b1
      let y ← continuation? b2
      let code := (n - 0xe0) * 4096 + x * 64 + y
      if code < 0x800 then none
      let c ← scalar? code
      return (c, 2)
    | _ => none
  else if 0xf0 ≤ n ∧ n < 0xf5 then
    match rest with
    | b1 :: b2 :: b3 :: _ => do
      let x ← continuation? b1
      let y ← continuation? b2
      let z ← continuation? b3
      let code := (n - 0xf0) * 262144 + x * 4096 + y * 64 + z
      if code < 0x10000 then none
      let c ← scalar? code
      return (c, 3)
    | _ => none
  else none

/-- The units of a sequence of bytes. -/
def unitsOfBytes : List UInt8 → List (Option Char)
  | [] => []
  | b :: rest =>
    match charAt? b rest with
    | some (c, n) => some c :: unitsOfBytes (rest.drop n)
    | none => none :: unitsOfBytes rest
termination_by bytes => bytes.length
decreasing_by all_goals simp; try omega

/-- The text of units that are all characters. -/
def textOfUnits? (units : List (Option Char)) : Option String :=
  (units.mapM id).map String.ofList

end Foreman.Text
