/-
Reading a TOML document.

The tokens are read one by one.  What is open while a value is being read stands
on a stack, at whose bottom stands the key that the value is for; an assignment
goes into the table that the last header opened.
-/
import Foreman.Toml.Table
import Foreman.Toml.Token

namespace Foreman.Toml

/-- What a value is being read for. -/
inductive Open where
  /-- A line of the document. -/
  | entry (path : List String) (key : String)
  /-- An array, its items in reverse. -/
  | array (items : List Value)
  /-- A member of an inline table. -/
  | inline (table : Table) (path : List String) (key : String)

/-- What a key is being read for. -/
inductive Target where
  | entry
  | header
  | itemHeader
  | member (table : Table) (stack : List Open)

/-- What may come next. -/
inductive Expect where
  /-- A line begins. -/
  | line
  /-- Nothing but blanks, up to the end of the line. -/
  | lineEnd
  /-- A second bracket, or the key of a header. -/
  | header
  /-- The bracket after a bracket. -/
  | secondBracket (path : List String) (key : String)
  /-- A part of a key; the parts so far are in reverse. -/
  | key (target : Target) (path : List String)
  /-- A dot, or what follows a whole key. -/
  | keyEnd (target : Target) (path : List String) (key : String)
  | value (stack : List Open)
  /-- Inside an unquoted value. -/
  | bare (text : List Char) (stack : List Open)
  /-- After a blank behind a date, where a time may follow. -/
  | dateEnd (text : List Char) (stack : List Open)
  /-- An item of an array, or its end. -/
  | item (items : List Value) (stack : List Open)
  /-- A comma or the end of an array. -/
  | itemEnd (items : List Value) (stack : List Open)
  /-- A member of an inline table, or its end. -/
  | member (table : Table) (stack : List Open)
  /-- A comma or the end of an inline table. -/
  | memberEnd (table : Table) (stack : List Open)

/-- The document so far, the path of the table that is open, and what may come next. -/
structure Reader where
  root : Table
  current : List String
  expect : Expect

namespace Reader

/-- Nothing has been read. -/
def start : Reader := ⟨⟨.header, []⟩, [], .line⟩

/-- Arrays and inline tables may be nested this deep. -/
def maxDepth : Nat := 80

/-- Goes on to expect something else. -/
def next (r : Reader) (e : Expect) : Option Reader := some { r with expect := e }

/-- A value is complete: it goes where it was read for. -/
def complete (r : Reader) (v : Value) : List Open → Option Reader
  | [] => none
  | .entry path key :: _ =>
    (r.root.within r.current (Table.assign path key v)).map fun root =>
      { r with root := root, expect := .lineEnd }
  | .array items :: stack => r.next (.itemEnd (v :: items) stack)
  | .inline table path key :: stack =>
    (table.assign path key v).bind fun table => r.next (.memberEnd table stack)

/-- A token where a value begins. -/
def readValue (r : Reader) (stack : List Open) : Token → Option Reader
  | .blank _ => r.next (.value stack)
  | .text _ s => r.complete (.string s) stack
  | .bare s => r.next (.bare s stack)
  | .openBracket => if stack.length > maxDepth then none else r.next (.item [] stack)
  | .openBrace => if stack.length > maxDepth then none else r.next (.member ⟨.inline, []⟩ stack)
  | _ => none

/-- The characters of a key without quotes. -/
def isBareKey (s : List Char) : Bool :=
  !s.isEmpty && s.all fun c => c.isAlphanum || c == '-' || c == '_'

/-- A token where a part of a key is expected. -/
def readKey (r : Reader) (target : Target) (path : List String) : Token → Option Reader
  | .blank _ => r.next (.key target path)
  | .text false s => r.next (.keyEnd target path s)
  | .bare s => if isBareKey s then r.next (.keyEnd target path (String.ofList s)) else none
  | _ => none

/-- A token behind a part of a key. -/
def readKeyEnd (r : Reader) (target : Target) (path : List String) (key : String) :
    Token → Option Reader
  | .blank _ => r.next (.keyEnd target path key)
  | .dot => r.next (.key target (key :: path))
  | .equals =>
    match target with
    | .entry => r.next (.value [.entry path.reverse key])
    | .member table stack => r.next (.value (.inline table path.reverse key :: stack))
    | _ => none
  | .closeBracket =>
    match target with
    | .header =>
      (r.root.openTable path.reverse key).map fun root =>
        ⟨root, (key :: path).reverse, .lineEnd⟩
    | .itemHeader => r.next (.secondBracket path.reverse key)
    | _ => none
  | _ => none

/-- A token where a member of an inline table may begin. -/
def readMember (r : Reader) (table : Table) (stack : List Open) : Token → Option Reader
  | .blank _ => r.next (.member table stack)
  | .newline => r.next (.member table stack)
  | .closeBrace => r.complete table.value stack
  | t => r.readKey (.member table stack) [] t

/-- A token where an item of an array may begin. -/
def readItem (r : Reader) (items : List Value) (stack : List Open) : Token → Option Reader
  | .blank _ => r.next (.item items stack)
  | .newline => r.next (.item items stack)
  | .closeBracket => r.complete (.array false items.reverse) stack
  | t => r.readValue (.array items :: stack) t

/-- A token outside unquoted values. -/
def readToken (r : Reader) (t : Token) : Option Reader :=
  match r.expect, t with
  | .line, .blank _ => some r
  | .line, .newline => some r
  | .line, .openBracket => r.next .header
  | .line, t => r.readKey .entry [] t
  | .lineEnd, .blank _ => some r
  | .lineEnd, .newline => r.next .line
  | .header, .openBracket => r.next (.key .itemHeader [])
  | .header, t => r.readKey .header [] t
  | .secondBracket path key, .closeBracket =>
    (r.root.openItem path key).map fun root => ⟨root, path ++ [key], .lineEnd⟩
  | .key target path, t => r.readKey target path t
  | .keyEnd target path key, t => r.readKeyEnd target path key t
  | .value stack, t => r.readValue stack t
  | .item items stack, t => r.readItem items stack t
  | .itemEnd _ _, .blank _ => some r
  | .itemEnd _ _, .newline => some r
  | .itemEnd items stack, .comma => r.next (.item items stack)
  | .itemEnd items stack, .closeBracket => r.complete (.array false items.reverse) stack
  | .memberEnd _ _, .blank _ => some r
  | .memberEnd _ _, .newline => some r
  | .memberEnd table stack, .comma => r.next (.member table stack)
  | .memberEnd table stack, .closeBrace => r.complete table.value stack
  | .member table stack, t => r.readMember table stack t
  | _, _ => none

/-- An unquoted value is complete, and a token follows it. -/
def endBare (r : Reader) (text : List Char) (stack : List Open) (t : Token) : Option Reader :=
  (Scalar.read text).bind fun s => (r.complete (.scalar s) stack).bind fun r => r.readToken t

/-- Reads one token. -/
def read (r : Reader) (t : Token) : Option Reader :=
  match r.expect, t with
  | .bare text stack, .bare s => r.next (.bare (text ++ s) stack)
  | .bare text stack, .dot => r.next (.bare (text ++ ['.']) stack)
  | .bare text stack, .blank ' ' =>
    if isDate text then r.next (.dateEnd text stack) else r.endBare text stack t
  | .bare text stack, t => r.endBare text stack t
  | .dateEnd text stack, .bare s => r.next (.bare (text ++ ' ' :: s) stack)
  | .dateEnd text stack, t => r.endBare text stack t
  | _, t => r.readToken t

/-- Reads tokens up to the end. -/
def readAll : Reader → List Token → Option Reader
  | r, [] => some r
  | r, t :: ts => (r.read t).bind fun r => readAll r ts

end Reader

/-- The root table of a document. -/
def parse (document : String) : Option Entries := do
  let ts ← tokens? document
  let r ← Reader.start.readAll (ts ++ [.newline])
  match r.expect with
  | .line => some r.root.entries
  | _ => none

end Foreman.Toml
