/-
Reading JSON.

The tokens are read one by one.  What has been opened and not yet closed stands
on a stack, so the depth of a text is bounded by nothing but its length.
-/
import Foreman.Json.Token

namespace Foreman.Json

/-- A container that is open, its contents in reverse. -/
inductive Open where
  | array (items : List Json)
  /-- An object in which the value of the member `name` is being read. -/
  | object (members : List (List Glyph × Json)) (name : List Glyph)

/-- What may come next. -/
inductive Expect where
  /-- A value has to come. -/
  | value
  /-- A value, or the end of an array that was just opened. -/
  | firstItem
  /-- A comma or the end of an array. -/
  | nextItem (items : List Json)
  /-- A name, or the end of an object that was just opened. -/
  | firstName
  /-- A name has to come. -/
  | name (members : List (List Glyph × Json))
  /-- A colon has to come. -/
  | colon (members : List (List Glyph × Json)) (name : List Glyph)
  /-- A comma or the end of an object. -/
  | nextName (members : List (List Glyph × Json))
  /-- The text has said everything. -/
  | nothing (value : Json)

/-- A value is complete: it goes into the container around it. -/
def complete (value : Json) : List Open → Expect × List Open
  | [] => (.nothing value, [])
  | .array items :: stack => (.nextItem (value :: items), stack)
  | .object members name :: stack => (.nextName ((name, value) :: members), stack)

/-- A token where a value may begin. -/
def readValue (stack : List Open) : Token → Option (Expect × List Open)
  | .openArray => some (.firstItem, stack)
  | .openObject => some (.firstName, stack)
  | .scalar value => some (complete value stack)
  | .text glyphs => some (complete (.string glyphs) stack)
  | _ => none

/-- Reads one token. -/
def readToken : Expect × List Open → Token → Option (Expect × List Open)
  | (.value, stack), t => readValue stack t
  | (.firstItem, stack), .closeArray => some (complete (.array []) stack)
  | (.firstItem, stack), t => readValue (.array [] :: stack) t
  | (.nextItem items, stack), .comma => some (.value, .array items :: stack)
  | (.nextItem items, stack), .closeArray => some (complete (.array items.reverse) stack)
  | (.firstName, stack), .closeObject => some (complete (.object []) stack)
  | (.firstName, stack), .text name => some (.colon [] name, stack)
  | (.name members, stack), .text name => some (.colon members name, stack)
  | (.colon members name, stack), .colon => some (.value, .object members name :: stack)
  | (.nextName members, stack), .comma => some (.name members, stack)
  | (.nextName members, stack), .closeObject => some (complete (.object members.reverse) stack)
  | _, _ => none

/-- Reads tokens up to the end. -/
def readTokens : Expect × List Open → List Token → Option (Expect × List Open)
  | state, [] => some state
  | state, t :: ts => (readToken state t).bind fun next => readTokens next ts

/-- The one value that a list of tokens writes. -/
def ofTokens? (ts : List Token) : Option Json :=
  match readTokens (.value, []) ts with
  | some (.nothing value, _) => some value
  | _ => none

/-- The tree of a sequence of units. -/
def ofUnits? (units : List (Option Char)) : Option Json :=
  (tokens? units).bind ofTokens?

/-- The tree of a text. -/
def ofString? (s : String) : Option Json :=
  ofUnits? (s.toList.map some)

end Foreman.Json
