/-
Reading typed values out of a tree.

A record is an object in which each of its names occurs once, among any others,
or an array of exactly its values in order.  Only the names of the members and
the values that are asked for are looked at.  A tagged message is looked at in
full: `wellFormed` bounds its depth and asks of every number that it fits a
double and of every string that it is Unicode.
-/
import Foreman.Json.Reader
import Foreman.Json.Number

namespace Foreman.Json

open Text

/-- The text of a string. -/
def text? : Json → Option String
  | .string glyphs => Glyph.text? glyphs
  | _ => none

/-- The truth value. -/
def bool? : Json → Option Bool
  | .bool b => some b
  | _ => none

/-- A natural number below `bound`, written without sign, fraction and exponent. -/
def nat? (bound : Nat) : Json → Option Nat
  | .number lexeme => Decimal.readBelow bound lexeme
  | _ => none

/-- An integer from `-bound` to `bound - 1`, written without fraction and exponent; a
negative zero is no integer. -/
def int? (bound : Nat) : Json → Option Int
  | .number ('-' :: digits) =>
    (Decimal.read digits).bind fun n => if 0 < n ∧ n ≤ bound then some (-(n : Int)) else none
  | .number lexeme => (Decimal.readBelow bound lexeme).map Int.ofNat
  | _ => none

/-- The members of an object with the texts of their names. -/
def named? (members : List (List Glyph × Json)) : Option (List (String × Json)) :=
  members.mapM fun m => (Glyph.text? m.1).map fun name => (name, m.2)

/-- The value of a name that occurs exactly once. -/
def only? (name : String) (members : List (String × Json)) : Option Json :=
  match members.filter (·.1 == name) with
  | [m] => some m.2
  | _ => none

/-- The values of a record with these names. -/
def values? (names : List String) : Json → Option (List Json)
  | .array items => if items.length = names.length then some items else none
  | .object members => (named? members).bind fun ms => names.mapM fun name => only? name ms
  | _ => none

/-- The one name of a choice without contents: a string, or an object with that one name
and `null`. -/
def choice? : Json → Option String
  | .string glyphs => Glyph.text? glyphs
  | .object [(name, .null)] => Glyph.text? name
  | _ => none

/-- The tag and the fields of a tagged record: an array that begins with the tag, or an
object in which `key` occurs once. -/
def tagged? (key : String) : Json → Option (String × Json)
  | .array (tag :: items) => (text? tag).map fun t => (t, .array items)
  | .object members => do
    let ms ← named? members
    let tag ← (only? key ms).bind text?
    return (tag, .object (members.filter fun m => Glyph.text? m.1 != some key))
  | _ => none

/-- At most `depth` containers are open at once, every number fits a double and every
string is Unicode. -/
def wellFormed : Nat → Json → Bool
  | _, .null => true
  | _, .bool _ => true
  | _, .number lexeme => numberFits lexeme
  | _, .string glyphs => (Glyph.text? glyphs).isSome
  | 0, .array _ => false
  | 0, .object _ => false
  | depth + 1, .array items => items.all (wellFormed depth)
  | depth + 1, .object members =>
    members.all fun m => (Glyph.text? m.1).isSome && wellFormed depth m.2

/-- The greatest number of containers that may be open at once in a tagged record. -/
def maxDepth : Nat := 127

end Foreman.Json
