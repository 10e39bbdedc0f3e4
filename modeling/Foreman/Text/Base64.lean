/-
Base 64: three bytes as four characters of a sixty-four letter alphabet.

There are two written forms.  The URL-safe one has `-` and `_` and no padding; it
is read back, and only in its canonical spelling, so that bytes and text
determine one another.  The other has `+`, `/` and padding, and is only written.
-/
namespace Foreman.Text.Base64

/-- A written form: its last two letters, and whether a short group is filled with `=`. -/
structure Form where
  letter62 : Char
  letter63 : Char
  padded : Bool
deriving DecidableEq

/-- The form for URLs and file names. -/
def urlSafe : Form := ⟨'-', '_', false⟩

/-- The form of mail and of the WebSocket handshake. -/
def padded : Form := ⟨'+', '/', true⟩

/-- The letter of a value below sixty-four. -/
def letter (form : Form) (n : Nat) : Char :=
  if n < 26 then Char.ofNat ('A'.toNat + n)
  else if n < 52 then Char.ofNat ('a'.toNat + (n - 26))
  else if n < 62 then Char.ofNat ('0'.toNat + (n - 52))
  else if n = 62 then form.letter62
  else form.letter63

/-- The value of a letter. -/
def value? (form : Form) (c : Char) : Option Nat :=
  if 'A' ≤ c ∧ c ≤ 'Z' then some (c.toNat - 'A'.toNat)
  else if 'a' ≤ c ∧ c ≤ 'z' then some (c.toNat - 'a'.toNat + 26)
  else if '0' ≤ c ∧ c ≤ '9' then some (c.toNat - '0'.toNat + 52)
  else if c = form.letter62 then some 62
  else if c = form.letter63 then some 63
  else none

/-- The padding of a group that lacks `n` letters. -/
def fill (form : Form) (n : Nat) : List Char :=
  if form.padded then List.replicate n '=' else []

/-- The letters of a sequence of bytes. -/
def encode (form : Form) : List UInt8 → List Char
  | [] => []
  | [a] =>
    letter form (a.toNat / 4) :: letter form (a.toNat % 4 * 16) :: fill form 2
  | [a, b] =>
    letter form (a.toNat / 4) :: letter form (a.toNat % 4 * 16 + b.toNat / 16) ::
      letter form (b.toNat % 16 * 4) :: fill form 1
  | a :: b :: c :: r =>
    letter form (a.toNat / 4) :: letter form (a.toNat % 4 * 16 + b.toNat / 16) ::
      letter form (b.toNat % 16 * 4 + c.toNat / 64) :: letter form (c.toNat % 64) ::
      encode form r

/-- The bytes that a sequence of values below sixty-four writes; the bits left over
after the last byte have to be zero. -/
def bytesOfValues : List Nat → Option (List UInt8)
  | [] => some []
  | [_] => none
  | [a, b] => if b % 16 = 0 then some [UInt8.ofNat (a * 4 + b / 16)] else none
  | [a, b, c] =>
    if c % 4 = 0 then
      some [UInt8.ofNat (a * 4 + b / 16), UInt8.ofNat (b % 16 * 16 + c / 4)]
    else none
  | a :: b :: c :: d :: r =>
    (bytesOfValues r).map fun rest =>
      UInt8.ofNat (a * 4 + b / 16) :: UInt8.ofNat (b % 16 * 16 + c / 4) ::
        UInt8.ofNat (c % 4 * 64 + d) :: rest

/-- The bytes whose URL-safe form is this text. -/
def decode (s : List Char) : Option (List UInt8) :=
  (s.mapM (value? urlSafe)).bind bytesOfValues

end Foreman.Text.Base64
