/-
The stores of a server, in memory or in a database, behind one set of operations.
-/
import Foreman.Store.Database
import Foreman.Store.Memory

namespace Foreman

/-- Where a server keeps accounts, tokens and results. -/
inductive Store where
  | memory (m : MemoryStore)
  | sql (db : Database)

namespace Store

/-- A result of a store in memory, which always answers. -/
private def answered {α : Type} (r : α × MemoryStore) : Except StoreError α × Store :=
  (.ok r.1, .memory r.2)

/-- A result of a database. -/
private def stored {α : Type} (r : Except StoreError α × Database) : Except StoreError α × Store :=
  (r.1, .sql r.2)

/-- The account with this id. -/
def identityById (id : UserId) : Store → Except StoreError (Option Identity) × Store
  | memory m => answered (m.identityById id, m)
  | sql db => stored (db.identityById id)

/-- The account with this email. -/
def identityByEmail (email : String) : Store → Except StoreError (Option Identity) × Store
  | memory m => answered (m.identityByEmail email, m)
  | sql db => stored (db.identityByEmail email)

/-- Sets the reset token of an email. -/
def setReset (clock : Clock) (email token : String) : Store → Except StoreError Unit × Store
  | memory m => answered ((), m.setReset clock email token)
  | sql db => stored (db.setReset clock email token)

/-- The reset token of an email until it expires. -/
def getReset (clock : Clock) (email : String) : Store → Except StoreError (Option String) × Store
  | memory m => answered (m.getReset clock email)
  | sql db => stored (db.getReset clock email)

/-- Deletes the reset token of an email; says whether there was one. -/
def deleteReset (email : String) : Store → Except StoreError Bool × Store
  | memory m => answered (m.deleteReset email)
  | sql db => stored (db.deleteReset email)

/-- The text of the account id to which a service token is bound. -/
def serviceTokenUser (token : String) : Store → Except StoreError (Option String) × Store
  | memory m => answered (m.serviceTokenUser token, m)
  | sql db => stored (db.serviceTokenUser token)

/-- Binds a service token. -/
def bind (token user : String) : Store → Store
  | memory m => memory (m.bind token user)
  | sql db => sql (db.bind token user)

/-- Records a result and counts. -/
def recordWork (event : WorkEvent) : Store → Except StoreError WorkTally × Store
  | memory m => let r := m.recordWork event; (r.1, memory r.2)
  | sql db => stored (db.recordWork event)

/-! ### Opening a store -/

/-- Why no store could be opened. -/
inductive OpenError where
  | unsupportedUrl
  | connect (engine : String)
  | noUrl
deriving DecidableEq

/-- The wording of an error. -/
def OpenError.message : OpenError → String
  | unsupportedUrl => "unsupported database_url for store"
  | connect engine => "connect " ++ engine
  | noUrl => "persistence enabled but no database_url configured"

/-- The settings after the question mark of a URL, as names and values. -/
def urlSettings (s : List Char) : List (List Char × List Char) :=
  ((Text.splitChars '&' s).filter (· ≠ [])).map fun part =>
    (Text.cutFirst '=' part).getD (part, [])

/-- Whether the settings are all known: the mode, how pages are cached, whether the file
may change, and the file system. -/
def settingKnown (setting : List Char × List Char) : Bool :=
  let value := String.ofList setting.2
  match String.ofList setting.1 with
  | "mode" => value ∈ ["ro", "rw", "rwc", "memory"]
  | "cache" => value ∈ ["private", "shared"]
  | "immutable" => value ∈ ["true", "1", "false", "0"]
  | "vfs" => true
  | _ => false

/-- Opens the database in a file: only one that is new and in memory, or nameless, is
there without anything having been prepared, and it has no tables. -/
def connectFile (name : List Char) : Except OpenError Store :=
  let (path, settings) := (Text.cutFirst '?' name).getD (name, [])
  let settings := urlSettings settings
  let mode := ((settings.filter (·.1 = "mode".toList)).getLast?.map fun s => String.ofList s.2).getD "rw"
  if settings.all settingKnown ∧ (path = [] ∨ path = ":memory:".toList ∨ mode = "memory") then
    .ok (sql Database.empty)
  else .error (.connect "sqlite")

/-- Opens the database of a URL.  The scheme chooses the engine; no database server is
within reach. -/
def connect (url : String) : Except OpenError Store :=
  let has (scheme : String) : Bool := Text.hasLead scheme url
  if has "sqlite:" then
    match Text.stripLead? "sqlite://" url with
    | some name => connectFile name.toList
    | none => connectFile ((Text.stripLead? "sqlite:" url).getD "").toList
  else if has "postgres:" || has "postgresql:" then .error (.connect "postgres")
  else if has "mysql:" || has "mariadb:" then .error (.connect "mysql")
  else .error .unsupportedUrl

end Store

end Foreman
