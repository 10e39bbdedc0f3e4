/-
Socket addresses, as text.

An address of version 4 has four decimal parts without leading zeros.  One of
version 6 has eight hexadecimal groups, where `::` stands for one group or more
that are zero and the last two groups may be written as an address of version 4;
it stands in brackets before the port, with its scope if it has one.  Printing
shortens the first of the longest runs of two zero groups or more.
-/
import Foreman.Text.Decimal
import Foreman.Text.Hex
import Foreman.Text.Split

namespace Foreman.Net

open Text

/-- An address of version 4. -/
structure Ipv4 where
  a : UInt8
  b : UInt8
  c : UInt8
  d : UInt8
deriving DecidableEq

/-- An address of version 6: eight groups of sixteen bits. -/
structure Ipv6 where
  groups : List UInt16
  length_eq : groups.length = 8
deriving DecidableEq

/-- An address and a port; a version 6 address may have a scope. -/
inductive SocketAddr where
  | v4 (ip : Ipv4) (port : UInt16)
  | v6 (ip : Ipv6) (scope : UInt32) (port : UInt16)
deriving DecidableEq

namespace SocketAddr

/-- The port of an address. -/
def port : SocketAddr → UInt16
  | v4 _ p => p
  | v6 _ _ p => p

/-- The address is of version 6. -/
def isV6 : SocketAddr → Bool
  | v4 .. => false
  | v6 .. => true

end SocketAddr

/-! ### Writing -/

/-- Four decimal parts. -/
def Ipv4.print (ip : Ipv4) : List Char :=
  ['.'].intercalate ([ip.a, ip.b, ip.c, ip.d].map fun part => Decimal.print part.toNat)

/-- A group without leading zeros, in lower case. -/
def printGroup (g : UInt16) : List Char := Nat.toDigits 16 g.toNat

/-- Groups joined by colons. -/
def printGroups (gs : List UInt16) : List Char :=
  [':'].intercalate (gs.map printGroup)

/-- The length of the run of zeros at the front. -/
def zeroRun (gs : List UInt16) : Nat :=
  (gs.takeWhile (· == 0)).length

/-- Where the first of the longest runs of zeros begins, and how long it is. -/
def longestZeroRun : List UInt16 → Nat × Nat
  | [] => (0, 0)
  | g :: gs =>
    let here := zeroRun (g :: gs)
    let later := longestZeroRun gs
    if later.2 > here then (later.1 + 1, later.2) else (0, here)

namespace Ipv6

/-- The version 4 address that is embedded behind `::ffff:`. -/
def mapped? (ip : Ipv6) : Option Ipv4 :=
  match ip.groups with
  | [0, 0, 0, 0, 0, 0xffff, x, y] =>
    some ⟨(x >>> 8).toUInt8, x.toUInt8, (y >>> 8).toUInt8, y.toUInt8⟩
  | _ => none

/-- The shortest text of an address. -/
def print (ip : Ipv6) : List Char :=
  match ip.mapped? with
  | some v4 => "::ffff:".toList ++ v4.print
  | none =>
    let run := longestZeroRun ip.groups
    if run.2 > 1 then
      printGroups (ip.groups.take run.1) ++ ':' :: ':' :: printGroups (ip.groups.drop (run.1 + run.2))
    else printGroups ip.groups

end Ipv6

namespace SocketAddr

/-- The text of the address without the port. -/
def printIp : SocketAddr → List Char
  | v4 ip _ => ip.print
  | v6 ip _ _ => ip.print

/-- The text of an address and its port. -/
def print : SocketAddr → List Char
  | v4 ip port => ip.print ++ ':' :: Decimal.print port.toNat
  | v6 ip scope port =>
    let suffix := if scope = 0 then [] else '%' :: Decimal.print scope.toNat
    '[' :: ip.print ++ suffix ++ ']' :: ':' :: Decimal.print port.toNat

/-- The text of an address and its port. -/
def text (a : SocketAddr) : String := String.ofList a.print

end SocketAddr

/-! ### Reading

Each reader takes what it reads off the front and gives back the rest. -/

/-- Takes one given character. -/
def takeChar (c : Char) : List Char → Option (List Char)
  | d :: r => if d = c then some r else none
  | [] => none

/-- Takes a decimal number below `bound`, leading zeros allowed. -/
def takeDecimal (bound : Nat) (s : List Char) : Option (Nat × List Char) :=
  (Decimal.readBelow bound (s.takeWhile Char.isDigit)).map fun n => (n, s.dropWhile Char.isDigit)

/-- Takes a part of a version 4 address: a byte without leading zeros. -/
def takePart (s : List Char) : Option (UInt8 × List Char) :=
  let digits := s.takeWhile Char.isDigit
  if digits.length > 1 ∧ digits.head? = some '0' then none
  else (takeDecimal 256 s).map fun p => (UInt8.ofNat p.1, p.2)

/-- Takes a version 4 address. -/
def takeIpv4 (s : List Char) : Option (Ipv4 × List Char) := do
  let (a, s) ← takePart s
  let s ← takeChar '.' s
  let (b, s) ← takePart s
  let s ← takeChar '.' s
  let (c, s) ← takePart s
  let s ← takeChar '.' s
  let (d, s) ← takePart s
  return (⟨a, b, c, d⟩, s)

/-- Takes a group of at most four hexadecimal digits. -/
def takeGroup (s : List Char) : Option (UInt16 × List Char) :=
  let isHex (c : Char) : Bool := (Hex.digit? c).isSome
  let digits := s.takeWhile isHex
  if digits.length > 4 then none
  else (Hex.read digits).map fun n => (UInt16.ofNat n, s.dropWhile isHex)

/-- Takes what comes before a group that is not the first: a colon. -/
def takeSeparator (isFirst : Bool) (s : List Char) : Option (List Char) :=
  if isFirst then some s else takeChar ':' s

/-- The two groups of an embedded version 4 address. -/
def Ipv4.groups (ip : Ipv4) : List UInt16 :=
  [(ip.a.toUInt16 <<< 8) ||| ip.b.toUInt16, (ip.c.toUInt16 <<< 8) ||| ip.d.toUInt16]

/-- Takes up to `limit` groups; an embedded version 4 address counts for two and ends
them, and the answer says whether there was one. -/
def takeGroups : Nat → Bool → List Char → List UInt16 × Bool × List Char
  | 0, _, s => ([], false, s)
  | limit + 1, isFirst, s =>
    let embedded :=
      if limit = 0 then none else (takeSeparator isFirst s).bind takeIpv4
    match embedded with
    | some (ip, r) => (ip.groups, true, r)
    | none =>
      match (takeSeparator isFirst s).bind takeGroup with
      | some (g, r) =>
        let (gs, v4, rest) := takeGroups limit false r
        (g :: gs, v4, rest)
      | none => ([], false, s)

/-- The address of eight groups. -/
def Ipv6.ofGroups? (gs : List UInt16) : Option Ipv6 :=
  if h : gs.length = 8 then some ⟨gs, h⟩ else none

/-- Takes a version 6 address. -/
def takeIpv6 (s : List Char) : Option (Ipv6 × List Char) :=
  let (front, v4, s) := takeGroups 8 true s
  if front.length = 8 then (Ipv6.ofGroups? front).map fun ip => (ip, s)
  else if v4 then none
  else do
    let s ← takeChar ':' s
    let s ← takeChar ':' s
    let (back, _, s) := takeGroups (7 - front.length) true s
    let zeros := List.replicate (8 - front.length - back.length) 0
    let ip ← Ipv6.ofGroups? (front ++ zeros ++ back)
    return (ip, s)

/-- Takes a scope, which is zero where none is written. -/
def takeScope (s : List Char) : UInt32 × List Char :=
  match (takeChar '%' s).bind (takeDecimal (Nat.pow 2 32)) with
  | some (n, r) => (UInt32.ofNat n, r)
  | none => (0, s)

/-- Takes a colon and a port. -/
def takePort (s : List Char) : Option (UInt16 × List Char) := do
  let s ← takeChar ':' s
  let (n, s) ← takeDecimal (Nat.pow 2 16) s
  return (UInt16.ofNat n, s)

namespace SocketAddr

/-- Takes a version 4 address and its port. -/
def takeV4 (s : List Char) : Option (SocketAddr × List Char) := do
  let (ip, s) ← takeIpv4 s
  let (port, s) ← takePort s
  return (v4 ip port, s)

/-- Takes a version 6 address in brackets and its port. -/
def takeV6 (s : List Char) : Option (SocketAddr × List Char) := do
  let s ← takeChar '[' s
  let (ip, s) ← takeIpv6 s
  let (scope, s) := takeScope s
  let s ← takeChar ']' s
  let (port, s) ← takePort s
  return (v6 ip scope port, s)

/-- The address that a text writes. -/
def ofText? (s : List Char) : Option SocketAddr :=
  match (takeV4 s).or (takeV6 s) with
  | some (a, []) => some a
  | _ => none

end SocketAddr

end Foreman.Net
