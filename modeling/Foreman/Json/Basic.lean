/-
JSON texts as trees.

A tree keeps what the text says before anyone asks whether its numbers fit or its
strings are Unicode: a number is its lexeme, a string a list of glyphs, an object
a list of members in order, repeated names included.  Readers of a type then ask
only about the parts they need, and everything else merely has to be grammatical.
-/
import Foreman.Text.Decimal

namespace Foreman

/-- One unit of a string between its quotes, escapes already undone. -/
inductive Glyph where
  | char (c : Char)
  /-- Half of a surrogate pair, written as an escape. -/
  | surrogate (code : Nat)
  /-- A byte that belongs to no character. -/
  | stray
deriving DecidableEq

/-- What a JSON text says. -/
inductive Json where
  | null
  | bool (b : Bool)
  | number (lexeme : List Char)
  | string (glyphs : List Glyph)
  | array (items : List Json)
  | object (members : List (List Glyph × Json))

namespace Glyph

/-- The glyphs of a text. -/
def ofText (s : String) : List Glyph :=
  s.toList.map char

/-- The code unit opens a surrogate pair. -/
def isHigh (code : Nat) : Bool := 0xd800 ≤ code && code < 0xdc00

/-- The code unit closes a surrogate pair. -/
def isLow (code : Nat) : Bool := 0xdc00 ≤ code && code < 0xe000

/-- The character that a surrogate pair stands for. -/
def ofPair (hi lo : Nat) : Char :=
  Char.ofNat (0x10000 + (hi - 0xd800) * 0x400 + (lo - 0xdc00))

/-- The characters of a string, if its surrogates come in pairs and no byte is stray. -/
def chars? : List Glyph → Option (List Char)
  | [] => some []
  | char c :: r => (chars? r).map (c :: ·)
  | surrogate hi :: surrogate lo :: r =>
    if isHigh hi && isLow lo then (chars? r).map (ofPair hi lo :: ·) else none
  | _ => none

/-- The text of a string, if it has one. -/
def text? (glyphs : List Glyph) : Option String :=
  (chars? glyphs).map String.ofList

theorem chars?_map_char (s : List Char) : chars? (s.map char) = some s := by
  induction s with
  | nil => rfl
  | cons c r ih => simp [chars?, ih]

theorem text?_ofText (s : String) : text? (ofText s) = some s := by
  simp [text?, ofText, chars?_map_char]

end Glyph

namespace Json

/-- A string that holds the text. -/
def ofText (s : String) : Json := .string (Glyph.ofText s)

/-- A natural number. -/
def ofNat (n : Nat) : Json := .number (Text.Decimal.print n)

/-- An integer. -/
def ofInt (n : Int) : Json := .number (Text.Decimal.printInt n)

/-- An object with the given members, in order. -/
def record (members : List (String × Json)) : Json :=
  .object (members.map fun m => (Glyph.ofText m.1, m.2))

end Json

end Foreman
