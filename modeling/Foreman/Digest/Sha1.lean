/-
SHA-1, which the WebSocket handshake asks for.  Padding and blocks are those of
SHA-256; a block is expanded to eighty words and the state has five.
-/
import Foreman.Digest.Sha256

namespace Foreman.Digest

namespace Sha1

/-- The five words of a digest in the making. -/
structure State where
  a : UInt32
  b : UInt32
  c : UInt32
  d : UInt32
  e : UInt32
deriving DecidableEq

/-- The state before the first block. -/
def State.start : State :=
  ⟨0x67452301, 0xefcdab89, 0x98badcfe, 0x10325476, 0xc3d2e1f0⟩

/-- Each word of one state added to that of another. -/
def State.add (s t : State) : State :=
  ⟨s.a + t.a, s.b + t.b, s.c + t.c, s.d + t.d, s.e + t.e⟩

/-- The bytes of the five words. -/
def State.bytes (s : State) : List UInt8 :=
  [s.a, s.b, s.c, s.d, s.e].flatMap bytesOfWord

/-- A block followed by `n` words made from it. -/
def expand : Nat → Array UInt32 → Array UInt32
  | 0, w => w
  | n + 1, w =>
    let i := w.size
    let word (back : Nat) : UInt32 := w[i - back]?.getD 0
    expand n (w.push (rotateLeft (word 3 ^^^ word 8 ^^^ word 14 ^^^ word 16) 1))

/-- One round with its number and a word of the block. -/
def round (s : State) (wi : UInt32 × Nat) : State :=
  let mix : UInt32 × UInt32 :=
    if wi.2 < 20 then ((s.b &&& s.c) ||| (~~~s.b &&& s.d), 0x5a827999)
    else if wi.2 < 40 then (s.b ^^^ s.c ^^^ s.d, 0x6ed9eba1)
    else if wi.2 < 60 then ((s.b &&& s.c) ||| (s.b &&& s.d) ||| (s.c &&& s.d), 0x8f1bbcdc)
    else (s.b ^^^ s.c ^^^ s.d, 0xca62c1d6)
  ⟨rotateLeft s.a 5 + mix.1 + s.e + mix.2 + wi.1, s.a, rotateLeft s.b 30, s.c, s.d⟩

/-- A block folded into a state. -/
def compress (s : State) (block : List UInt32) : State :=
  s.add ((expand 64 block.toArray).toList.zipIdx.foldl round s)

end Sha1

/-- The twenty bytes of a message's SHA-1. -/
def sha1 (message : List UInt8) : List UInt8 :=
  ((blocks message).foldl Sha1.compress Sha1.State.start).bytes

end Foreman.Digest
