/-
The tokens of a JSON text.

The text is read unit by unit: a unit is a character, or a byte that belongs to
no character, which only a string may hold.  Blanks separate tokens and are
dropped.
-/
import Foreman.Json.Basic
import Foreman.Text.Hex

namespace Foreman.Json

open Text

/-- A token of a JSON text. -/
inductive Token where
  | openArray
  | closeArray
  | openObject
  | closeObject
  | comma
  | colon
  /-- A whole value: a name, a number or a string. -/
  | scalar (value : Json)
  | text (glyphs : List Glyph)

/-! ### Numbers -/

/-- What follows the digits at the front of a text. -/
def afterDigits (s : List Char) : List Char :=
  s.dropWhile Char.isDigit

/-- An exponent, or nothing. -/
def isExponent : List Char → Bool
  | [] => true
  | e :: s =>
    (e == 'e' || e == 'E') &&
      match s with
      | sign :: d :: r =>
        if sign == '+' || sign == '-' then d.isDigit && (afterDigits r).isEmpty
        else sign.isDigit && (afterDigits (d :: r)).isEmpty
      | [d] => d.isDigit
      | [] => false

/-- A fraction, an exponent, both or nothing. -/
def isFraction : List Char → Bool
  | '.' :: d :: r => d.isDigit && isExponent (afterDigits r)
  | s => isExponent s

/-- A number without its sign: no zero leads other digits. -/
def isMagnitude : List Char → Bool
  | '0' :: r => isFraction r
  | d :: r => d.isDigit && isFraction (afterDigits r)
  | [] => false

/-- A lexeme is a number of the grammar. -/
def isNumber : List Char → Bool
  | '-' :: r => isMagnitude r
  | s => isMagnitude s

/-- The characters of which numbers are made. -/
def isNumberChar (c : Char) : Bool :=
  c.isDigit || c == '-' || c == '+' || c == '.' || c == 'e' || c == 'E'

/-- The characters that separate tokens. -/
def isBlank (c : Char) : Bool :=
  c == ' ' || c == '\t' || c == '\n' || c == '\r'

/-! ### Reading tokens -/

/-- Where in a token the reading stands; what is inside it is kept in reverse. -/
inductive Place where
  | between
  /-- Inside a name, with the letters that have to follow. -/
  | name (rest : List Char) (value : Json)
  | number (lexeme : List Char)
  | text (glyphs : List Glyph)
  | escape (glyphs : List Glyph)
  /-- Inside a `\u` escape, with the number of digits that have to follow. -/
  | code (glyphs : List Glyph) (missing : Nat) (value : Nat)

/-- The character that a letter after a backslash stands for. -/
def unescape? (c : Char) : Option Char :=
  if c = '"' then some '"'
  else if c = '\\' then some '\\'
  else if c = '/' then some '/'
  else if c = 'b' then some '\x08'
  else if c = 'f' then some '\x0c'
  else if c = 'n' then some '\n'
  else if c = 'r' then some '\r'
  else if c = 't' then some '\t'
  else none

/-- The glyph that a `\u` escape stands for. -/
def glyphOfCode (code : Nat) : Glyph :=
  if Glyph.isHigh code || Glyph.isLow code then .surrogate code else .char (Char.ofNat code)

/-- What a character says where a token may begin: a token, a place inside one, or
nothing for a blank. -/
def begin? (c : Char) : Option (Option Token × Place) :=
  if isBlank c then some (none, .between)
  else if c = '[' then some (some .openArray, .between)
  else if c = ']' then some (some .closeArray, .between)
  else if c = '{' then some (some .openObject, .between)
  else if c = '}' then some (some .closeObject, .between)
  else if c = ',' then some (some .comma, .between)
  else if c = ':' then some (some .colon, .between)
  else if c = '"' then some (none, .text [])
  else if c = 't' then some (none, .name "rue".toList (.bool true))
  else if c = 'f' then some (none, .name "alse".toList (.bool false))
  else if c = 'n' then some (none, .name "ull".toList .null)
  else if isNumberChar c then some (none, .number [c])
  else none

/-- A number token, once its lexeme is complete. -/
def numberToken? (reversed : List Char) : Option Token :=
  if isNumber reversed.reverse then some (.scalar (.number reversed.reverse)) else none

/-- The tokens of the units that follow, read from a place. -/
def tokensFrom : Place → List (Option Char) → Option (List Token)
  | .between, [] => some []
  | .between, some c :: r =>
    match begin? c with
    | some (some t, place) => (tokensFrom place r).map (t :: ·)
    | some (none, place) => tokensFrom place r
    | none => none
  | .name [a] value, some c :: r =>
    if c = a then (tokensFrom .between r).map (.scalar value :: ·) else none
  | .name (a :: b :: rest) value, some c :: r =>
    if c = a then tokensFrom (.name (b :: rest) value) r else none
  | .number lexeme, [] => (numberToken? lexeme).map fun t => [t]
  | .number lexeme, some c :: r =>
    if isNumberChar c then tokensFrom (.number (c :: lexeme)) r
    else do
      let number ← numberToken? lexeme
      match begin? c with
      | some (some t, place) => (tokensFrom place r).map fun ts => number :: t :: ts
      | some (none, place) => (tokensFrom place r).map (number :: ·)
      | none => none
  | .text glyphs, some c :: r =>
    if c = '"' then (tokensFrom .between r).map (.text glyphs.reverse :: ·)
    else if c = '\\' then tokensFrom (.escape glyphs) r
    else if c.toNat < 0x20 then none
    else tokensFrom (.text (.char c :: glyphs)) r
  | .text glyphs, none :: r => tokensFrom (.text (.stray :: glyphs)) r
  | .escape glyphs, some c :: r =>
    if c = 'u' then tokensFrom (.code glyphs 4 0) r
    else match unescape? c with
      | some d => tokensFrom (.text (.char d :: glyphs)) r
      | none => none
  | .code glyphs missing value, some c :: r =>
    match Hex.digit? c with
    | some d =>
      if missing ≤ 1 then tokensFrom (.text (glyphOfCode (16 * value + d) :: glyphs)) r
      else tokensFrom (.code glyphs (missing - 1) (16 * value + d)) r
    | none => none
  | _, _ => none

/-- The tokens of a text. -/
def tokens? (units : List (Option Char)) : Option (List Token) :=
  tokensFrom .between units

end Foreman.Json
