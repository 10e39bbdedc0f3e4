/-
Tables of a TOML document, and how they may grow.

A table remembers how it came about, since that decides who may add to it: one
that was opened by a header is closed to dotted keys from outside and to a second
header, one that merely lay on the way to a header may still be opened, one that
dotted keys made takes further dotted keys, and an inline table takes nothing.
-/
import Foreman.Toml.Scalar

namespace Foreman.Toml

/-- How a table came about. -/
inductive Origin where
  /-- A header opened it; the document itself counts as opened. -/
  | header
  /-- It lies on the way to a header. -/
  | onTheWay
  | dottedKey
  | inline
deriving DecidableEq

/-- A value of a TOML document. -/
inductive Value where
  | string (s : String)
  | scalar (s : Scalar)
  /-- An array; `ofTables` if it was made by headers in double brackets. -/
  | array (ofTables : Bool) (items : List Value)
  | table (origin : Origin) (entries : List (String × Value))

/-- The entries of a table, by key, in the order in which they were made. -/
abbrev Entries := List (String × Value)

namespace Entries

/-- The value of a key. -/
def find (t : Entries) (key : String) : Option Value :=
  (t.find? (·.1 == key)).map (·.2)

/-- Gives a key a value, in place of any other. -/
def put (t : Entries) (key : String) (v : Value) : Entries :=
  if t.any (·.1 == key) then t.map fun e => if e.1 == key then (key, v) else e
  else t ++ [(key, v)]

end Entries

/-- A table with its origin. -/
structure Table where
  origin : Origin
  entries : Entries

/-- A table as a value. -/
def Table.value (t : Table) : Value := .table t.origin t.entries

/-- A change of a table that may be refused. -/
abbrev Change := Table → Option Table

/-- Changes the value of a key. -/
def Table.alter (key : String) (f : Option Value → Option Value) : Change := fun t =>
  (f (t.entries.find key)).map fun v => { t with entries := t.entries.put key v }

/-- Changes a table that a path leads through.  A dotted key may pass only tables that no
header opened. -/
def enter (dotted : Bool) (change : Change) : Option Value → Option Value
  | none => (change ⟨if dotted then .dottedKey else .onTheWay, []⟩).map Table.value
  | some (.table origin entries) =>
    if origin = .inline ∨ (dotted ∧ origin = .header) then none
    else (change ⟨origin, entries⟩).map Table.value
  | some (.array true items) =>
    match items.getLast? with
    | some (.table origin entries) =>
      (change ⟨origin, entries⟩).map fun t => .array true (items.dropLast ++ [t.value])
    | _ => none
  | some _ => none

/-- Changes the table at the end of a path. -/
def Table.descend (dotted : Bool) : List String → Change → Change
  | [], change => change
  | key :: path, change => Table.alter key (enter dotted (Table.descend dotted path change))

/-- Gives a key a value where it has none.  The last table of a dotted key has to be made
by dotted keys, and that of a plain key has not. -/
def Table.assignLast (dotted : Bool) (key : String) (v : Value) : Change := fun t =>
  if (t.origin == .dottedKey) != dotted then none
  else t.alter key fun
    | none => some v
    | some _ => none

/-- Gives a path of keys, the last one apart, a value. -/
def Table.assign (path : List String) (key : String) (v : Value) : Change :=
  Table.descend true path (Table.assignLast (!path.isEmpty) key v)

/-- Opens the table of a header: it is new, or lay on the way to others. -/
def Table.openTable (path : List String) (key : String) : Change :=
  Table.descend false path (Table.alter key fun
    | none => some (.table .header [])
    | some (.table .onTheWay entries) => some (.table .header entries)
    | some _ => none)

/-- Opens a new table at the end of an array of tables. -/
def Table.openItem (path : List String) (key : String) : Change :=
  Table.descend false path (Table.alter key fun
    | none => some (.array true [.table .header []])
    | some (.array true items) => some (.array true (items ++ [.table .header []]))
    | some _ => none)

/-- Changes the table that a header has opened, which stays as open as it is. -/
def Table.within (path : List String) (change : Change) : Change :=
  Table.descend false path change

end Foreman.Toml
