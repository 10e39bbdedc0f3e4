/-
Writing JSON.

No blank is written.  In a string the quote, the backslash and the characters
below the blank are escaped, by a letter where there is one, and every other
character stands for itself.
-/
import Foreman.Json.Basic
import Foreman.Text.Hex

namespace Foreman.Json

open Text

/-- A code unit as an escape of four lower case digits. -/
def escapeUnit (code : Nat) : List Char :=
  '\\' :: 'u' :: Hex.printWidth 4 code

/-- A character as it stands in a string. -/
def escapeChar (c : Char) : List Char :=
  if c = '"' then ['\\', '"']
  else if c = '\\' then ['\\', '\\']
  else if c = '\n' then ['\\', 'n']
  else if c = '\r' then ['\\', 'r']
  else if c = '\t' then ['\\', 't']
  else if c = '\x08' then ['\\', 'b']
  else if c = '\x0c' then ['\\', 'f']
  else if c.toNat < 0x20 then escapeUnit c.toNat
  else [c]

/-- A glyph as it stands in a string; a stray byte becomes the replacement character. -/
def printGlyph : Glyph → List Char
  | .char c => escapeChar c
  | .surrogate code => escapeUnit code
  | .stray => ['\ufffd']

/-- A string between its quotes. -/
def printString (glyphs : List Glyph) : List Char :=
  '"' :: glyphs.flatMap printGlyph ++ ['"']

mutual

/-- The text of a tree. -/
def printChars : Json → List Char
  | .null => "null".toList
  | .bool true => "true".toList
  | .bool false => "false".toList
  | .number lexeme => lexeme
  | .string glyphs => printString glyphs
  | .array [] => ['[', ']']
  | .array (x :: xs) => '[' :: printChars x ++ printItems xs
  | .object [] => ['{', '}']
  | .object ((name, x) :: ms) => '{' :: printString name ++ ':' :: printChars x ++ printMembers ms

/-- The items after the first one, each after a comma, and the closing bracket. -/
def printItems : List Json → List Char
  | [] => [']']
  | x :: xs => ',' :: printChars x ++ printItems xs

/-- The members after the first one, each after a comma, and the closing brace. -/
def printMembers : List (List Glyph × Json) → List Char
  | [] => ['}']
  | (name, x) :: ms => ',' :: printString name ++ ':' :: printChars x ++ printMembers ms

end

/-- The text of a tree. -/
def print (j : Json) : String :=
  String.ofList (printChars j)

end Foreman.Json
