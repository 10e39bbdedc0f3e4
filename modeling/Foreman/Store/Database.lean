/-
Stores in a SQL database.

The database is its tables.  A statement takes effect entirely or not at all; it
fails when its table is missing, and may be refused besides.  An operation is one
statement or two, and stops at the first that fails, so what earlier statements
did stays done.
-/
import Foreman.Clock
import Foreman.Event
import Foreman.Store.Error

namespace Foreman

/-- A row of the table of accounts. -/
structure UserRow where
  id : String
  email : String
  emailVerified : Bool
  canRequestWork : Bool
  kind : String
deriving DecidableEq

/-- The account that a row holds. -/
def Identity.ofRow (row : UserRow) : Except StoreError Identity :=
  match UserId.parse row.id with
  | .error e => .error (.idNotUuid row.id e)
  | .ok id =>
    match UserType.parse row.kind with
    | .error e => .error (.unknownUserType row.kind e)
    | .ok kind => .ok ⟨id, row.email, row.emailVerified, row.canRequestWork, kind⟩

/-- The row that an account is stored as. -/
def Identity.toRow (who : Identity) : UserRow :=
  ⟨who.id.text, who.email, who.emailVerified, who.canRequestWork, who.kind.name⟩

/-- A row of the table of reset tokens. -/
structure ResetRow where
  email : String
  token : String
  expiresAt : Nat
deriving DecidableEq

/-- A row of the table of service tokens. -/
structure ServiceTokenRow where
  token : String
  userId : String
deriving DecidableEq

/-- A row of the table of results, as far as it is counted. -/
structure WorkRow where
  providerId : String
  requesterId : String
  workerKey : String
  hash : String
  difficultyMultiplier : UInt32
deriving DecidableEq

/-- The tables; one that is absent is `none`. -/
structure Database where
  users : Option (List UserRow) := some []
  resets : Option (List ResetRow) := some []
  serviceTokens : Option (List ServiceTokenRow) := some []
  work : Option (List WorkRow) := some []
  /-- Whether each of the next statements is refused; later ones are not. -/
  refusals : List Bool := []

namespace Database

/-- A database without tables. -/
def empty : Database := { users := none, resets := none, serviceTokens := none, work := none }

/-- Runs one statement: its effect, or its failure and no effect. -/
def execute {α : Type} (s : Statement) (effect : Database → Option (α × Database))
    (db : Database) : Except StoreError α × Database :=
  let rest := { db with refusals := db.refusals.drop 1 }
  if db.refusals.head?.getD false then (.error (.statement s), rest)
  else match effect rest with
    | some (a, db') => (.ok a, db')
    | none => (.error (.statement s), rest)

/-- Runs one statement that reads. -/
def query {α : Type} (s : Statement) (read : Database → Option α) (db : Database) :
    Except StoreError α × Database :=
  db.execute s fun d => (read d).map fun a => (a, d)

/-! ### Accounts -/

/-- The first row that a condition selects, as an account. -/
def fetchIdentity (selects : UserRow → Bool) (db : Database) :
    Except StoreError (Option Identity) × Database :=
  match db.query .selectUser fun d => d.users.map (·.find? selects) with
  | (.error e, db) => (.error e, db)
  | (.ok none, db) => (.ok none, db)
  | (.ok (some row), db) => ((Identity.ofRow row).map some, db)

/-- The account whose id is stored as the id is printed. -/
def identityById (id : UserId) : Database → Except StoreError (Option Identity) × Database :=
  fetchIdentity fun row => row.id == id.text

/-- The account whose stored email, in lower case, is the normalized email. -/
def identityByEmail (email : String) : Database → Except StoreError (Option Identity) × Database :=
  fetchIdentity fun row => row.email.toLower == normalizeEmail email

/-- Inserts a row as it is. -/
def insertUser (row : UserRow) (db : Database) : Database :=
  { db with users := db.users.map (· ++ [row]) }

/-! ### Reset tokens -/

/-- Deletes the tokens of an email; says whether there were any. -/
def deleteReset (email : String) (db : Database) : Except StoreError Bool × Database :=
  db.execute .deleteReset fun d => d.resets.map fun rows =>
    (rows.any (·.email == normalizeEmail email),
      { d with resets := some (rows.filter (·.email != normalizeEmail email)) })

/-- Inserts a token. -/
def insertReset (row : ResetRow) (db : Database) : Except StoreError Unit × Database :=
  db.execute .insertReset fun d => d.resets.map fun rows =>
    ((), { d with resets := some (rows ++ [row]) })

/-- Sets the token of an email: the old ones are deleted, then the new one is inserted. -/
def setReset (clock : Clock) (email token : String) (db : Database) :
    Except StoreError Unit × Database :=
  match db.deleteReset (normalizeEmail email) with
  | (.error e, db) => (.error e, db)
  | (.ok _, db) =>
    db.insertReset ⟨normalizeEmail email, token, clock.unixSeconds + resetLifetimeSeconds⟩

/-- The token of an email until it expires. -/
def getReset (clock : Clock) (email : String) (db : Database) :
    Except StoreError (Option String) × Database :=
  db.query .selectReset fun d => d.resets.map fun rows =>
    (rows.find? fun row => row.email == normalizeEmail email && decide (clock.unixSeconds < row.expiresAt)).map
      (·.token)

/-! ### Service tokens -/

/-- Inserts a binding. -/
def bind (token user : String) (db : Database) : Database :=
  { db with serviceTokens := db.serviceTokens.map (· ++ [⟨token, user⟩]) }

/-- The text to which a token was bound first. -/
def serviceTokenUser (token : String) (db : Database) :
    Except StoreError (Option String) × Database :=
  db.query .selectServiceToken fun d => d.serviceTokens.map fun rows =>
    (rows.find? (·.token == token)).map (·.userId)

/-! ### Results -/

/-- The results of a provider and of a requester. -/
def countWork (provider requester : String) (db : Database) :
    Except StoreError WorkTally × Database :=
  db.query .countWork fun d => d.work.map fun rows =>
    ⟨rows.countP (·.providerId == provider), rows.countP (·.requesterId == requester)⟩

/-- Inserts the row of a result and counts. -/
def recordWork (event : WorkEvent) (db : Database) : Except StoreError WorkTally × Database :=
  match event.workerKey.owner? with
  | none => (.error (.noOwner event.workerKey), db)
  | some provider =>
    let row : WorkRow := {
      providerId := provider.text
      requesterId := event.requesterId.text
      workerKey := event.workerKey.text
      hash := event.result.hash
      difficultyMultiplier := event.result.difficultyMultiplier }
    match db.execute .insertWork fun d => d.work.map fun rows =>
        ((), { d with work := some (rows ++ [row]) }) with
    | (.error e, db) => (.error e, db)
    | (.ok _, db) => db.countWork row.providerId row.requesterId

/-! ### Tables -/

/-- A table by its name. -/
inductive Table where
  | users
  | resets
  | serviceTokens
  | work
deriving DecidableEq

/-- The table with this name. -/
def Table.ofName? (s : String) : Option Table :=
  if s = "users" then some users
  else if s = "password_reset_tokens" then some resets
  else if s = "service_tokens" then some serviceTokens
  else if s = "work_results" then some work
  else none

/-- The database without a table. -/
def drop (t : Table) (db : Database) : Database :=
  match t with
  | .users => { db with users := none }
  | .resets => { db with resets := none }
  | .serviceTokens => { db with serviceTokens := none }
  | .work => { db with work := none }

end Database

end Foreman
