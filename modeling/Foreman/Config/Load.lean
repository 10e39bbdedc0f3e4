/-
The effective configuration: the file, then the environment over it.

A setting that is absent, blank or zero where it has to be positive has its
default.  The keep-alive timeout has to exceed the interval; one that does not is
replaced by three times the interval, after the file and again after the
environment.
-/
import Foreman.Config.File
import Foreman.Config.Setting
import Foreman.Config.Variable
import Foreman.Message.TextFrame
import Foreman.Store

namespace Foreman

/-- The settings of the server. -/
structure ServerSettings where
  bind : Option String := none
  metricsBind : Option String := none
  healthBind : Option String := none
  secret : Option Secret := none
  serviceTokens : List String := []
  outboundCapacity : Nat := 64
  keepaliveIntervalSecs : Nat := 10
  keepaliveTimeoutSecs : Nat := 30
  maxFrameBytes : Nat := TextFrame.defaultLimit
deriving DecidableEq

/-- The settings of the work pipeline. -/
structure PipelineSettings where
  queueCapacity : Nat := 100
  payoutThreshold : Nat := 1
deriving DecidableEq

/-- The settings of persistence. -/
structure PersistenceSettings where
  enabled : Bool := false
  databaseUrl : Option String := none
deriving DecidableEq

/-- The effective configuration. -/
structure Config where
  server : ServerSettings := {}
  pipeline : PipelineSettings := {}
  persistence : PersistenceSettings := {}
  /-- The accounts that are served when persistence is disabled. -/
  users : List Identity := []
  /-- The bindings of service tokens that are used when persistence is disabled. -/
  serviceTokenUsers : List (String × String) := []

namespace Config

/-- Why no configuration could be loaded. -/
inductive LoadError where
  /-- The file cannot be read as text. -/
  | unreadable (path : String)
  /-- The text is not a document with the settings of a configuration. -/
  | unparsable (path : String)
  | userId (email : String) (cause : IdError)
  | userType (email : String) (cause : IdError)
  /-- Three times the keep-alive interval takes more than sixty-four bits of seconds. -/
  | intervalTooLong
deriving DecidableEq

namespace LoadError

/-- What went wrong, without its cause. -/
def headline : LoadError → String
  | unreadable path => "read config from " ++ path
  | unparsable path => "read config from " ++ path
  | userId email _ => "users: invalid id for " ++ email
  | userType email _ => "users: invalid user_type for " ++ email
  | intervalTooLong => "keep-alive interval too long"

/-- The cause of an error, where there is more to say. -/
def reason? : LoadError → Option String
  | unreadable _ => some "read config file"
  | unparsable _ => some "parse TOML"
  | userId _ cause => some cause.message
  | userType _ cause => some cause.message
  | intervalTooLong => none

/-- The wording of an error, its cause included. -/
def message (e : LoadError) : String :=
  e.headline ++ e.reason?.elim "" (": " ++ ·)

end LoadError

/-! ### The keep-alive pair -/

/-- Three times an interval, within sixty-four bits. -/
def triple? (intervalSecs : Nat) : Except LoadError Nat :=
  if 3 * intervalSecs < Nat.pow 2 64 then .ok (3 * intervalSecs) else .error .intervalTooLong

/-- A timeout that exceeds the interval: the one given, or else three times the interval,
which an operator is told. -/
def fixKeepalive (s : ServerSettings) : Except LoadError (ServerSettings × List Notice) :=
  if s.keepaliveTimeoutSecs ≤ s.keepaliveIntervalSecs then do
    let fixed ← triple? s.keepaliveIntervalSecs
    let notice := .keepaliveFixed s.keepaliveIntervalSecs s.keepaliveTimeoutSecs fixed
    return ({ s with keepaliveTimeoutSecs := fixed }, [notice])
  else return (s, [])

/-! ### From the file -/

/-- A number that has to be positive, or its default. -/
def positiveOr (default : Nat) (n : Option Nat) : Nat :=
  (n.filter (0 < ·)).getD default

/-- The account of an entry of the file; one without an id gets a new one. -/
def identityOf (newId : UserId) (u : FileUser) : Except LoadError Identity := do
  let id ← match u.id with
    | none => pure newId
    | some raw => (UserId.parse raw).mapError (.userId u.email)
  let kind ← (UserType.parse u.kind).mapError (.userType u.email)
  return ⟨id, u.email, u.emailVerified, u.canRequestWork, kind⟩

/-- The accounts of the file's entries; `newId n` is the new id for the `n`-th of them. -/
def identitiesOf (newId : Nat → UserId) (users : List FileUser) :
    Except LoadError (List Identity) :=
  users.zipIdx.mapM fun u => identityOf (newId u.2) u.1

/-- Bindings under normal tokens; of several for one token the last one counts. -/
def normalBindings (bindings : List (String × String)) : List (String × String) :=
  bindings.foldl (fun acc b =>
    match normalizeServiceToken b.1 with
    | none => acc
    | some token => acc.filter (·.1 != token) ++ [(token, b.2)]) []

/-- The configuration that the file alone gives. -/
def ofFile (newId : Nat → UserId) (f : File) : Except LoadError (Config × List Notice) := do
  let interval := positiveOr 10 f.server.keepaliveInterval
  let longTimeout ← triple? interval
  let users ← identitiesOf newId f.users
  let server : ServerSettings := {
    bind := nonEmpty f.server.bind
    metricsBind := nonEmpty f.server.metricsBind
    healthBind := nonEmpty f.server.healthBind
    secret := (nonEmpty f.server.secret).map Secret.mk
    serviceTokens := f.server.serviceTokens.filterMap normalizeServiceToken
    outboundCapacity := positiveOr 64 f.server.outboundCapacity
    keepaliveIntervalSecs := interval
    keepaliveTimeoutSecs := positiveOr longTimeout f.server.keepaliveTimeout
    maxFrameBytes := positiveOr TextFrame.defaultLimit f.server.maxFrameBytes }
  let (server, notices) ← fixKeepalive server
  return ({
    server := server
    pipeline := {
      queueCapacity := positiveOr 100 f.pipeline.queueCapacity
      payoutThreshold := f.pipeline.payoutThreshold.getD 1 }
    persistence := {
      enabled := f.persistence.enabled.getD false
      databaseUrl := nonEmpty f.persistence.databaseUrl }
    users := users
    serviceTokenUsers := normalBindings f.serviceTokenUsers }, notices)

/-! ### From the environment -/

/-- A variable without blanks around it, if it is set and not blank. -/
def textOf? (env : Environment) (v : Variable) : Option String :=
  nonEmpty (env v)

/-- A variable that holds a number of sixty-four bits. -/
def number? (env : Environment) (v : Variable) : Option Nat :=
  (textOf? env v).bind fun s => Text.Decimal.readSigned (Nat.pow 2 64) s.toList

/-- A variable that holds a positive number of sixty-four bits. -/
def positive? (env : Environment) (v : Variable) : Option Nat :=
  (number? env v).filter (0 < ·)

/-- The service tokens of a comma-separated list. -/
def tokensOf (list : String) : List String :=
  (Text.split ',' list).filterMap normalizeServiceToken

/-- The server's settings with those of the environment in their place. -/
def overrideServer (env : Environment) (s : ServerSettings) : ServerSettings where
  bind := (textOf? env .bind).or s.bind
  metricsBind := (textOf? env .metricsBind).or s.metricsBind
  healthBind := (textOf? env .healthBind).or s.healthBind
  secret := ((textOf? env .secret).map Secret.mk).or s.secret
  serviceTokens :=
    ((textOf? env .serviceTokens).map tokensOf).getD s.serviceTokens
  outboundCapacity := (positive? env .outboundCapacity).getD s.outboundCapacity
  keepaliveIntervalSecs :=
    (positive? env .keepaliveInterval).getD s.keepaliveIntervalSecs
  keepaliveTimeoutSecs :=
    (positive? env .keepaliveTimeout).getD s.keepaliveTimeoutSecs
  maxFrameBytes := (positive? env .maxFrameBytes).getD s.maxFrameBytes

/-- The configuration with the settings of the environment in their place. -/
def override (env : Environment) (c : Config) : Except LoadError (Config × List Notice) := do
  let (server, notices) ← fixKeepalive (overrideServer env c.server)
  let config := { c with
    server := server
    pipeline := {
      queueCapacity := (positive? env .queueCapacity).getD c.pipeline.queueCapacity
      payoutThreshold := (number? env .payoutThreshold).getD c.pipeline.payoutThreshold }
    persistence := {
      enabled := ((textOf? env .persistenceEnabled).bind parseSwitch).getD
        c.persistence.enabled
      databaseUrl := (textOf? env .databaseUrl).or c.persistence.databaseUrl } }
  return (config, notices ++ if server.secret.isNone then [.noSecret] else [])

/-! ### Loading -/

/-- What is found where the configuration file should be. -/
inductive Source where
  | missing
  /-- A directory, or something else that cannot be read. -/
  | unreadable
  | bytes (contents : List UInt8)

/-- The file's settings; a file that is missing sets nothing. -/
def Source.file (path : String) : Source → Except LoadError File
  | missing => .ok {}
  | unreadable => .error (.unreadable path)
  | bytes contents =>
    match Text.textOfUnits? (Text.unitsOfBytes contents) with
    | none => .error (.unreadable path)
    | some text =>
      match File.parse? text with
      | none => .error (.unparsable path)
      | some f => .ok f

/-- The configuration of a file and an environment. -/
def ofSettings (newId : Nat → UserId) (f : File) (env : Environment) :
    Except LoadError (Config × List Notice) := do
  let (c, early) ← ofFile newId f
  let (c, late) ← override env c
  return (c, early ++ late)

/-- Loads the configuration. -/
def load (newId : Nat → UserId) (path : String) (source : Source) (env : Environment) :
    Except LoadError (Config × List Notice) := do
  ofSettings newId (← source.file path) env

/-! ### What the configuration sets up -/

/-- The stores: the configured database, or memory with the configured accounts. -/
def openStore (c : Config) : Except Store.OpenError (Store × List Notice) :=
  if c.persistence.enabled then
    match c.persistence.databaseUrl with
    | none => .error .noUrl
    | some url => (Store.connect url).map fun s => (s, [])
  else
    let m := c.users.foldl (fun m u => m.upsert u) ({} : MemoryStore)
    let m := c.serviceTokenUsers.foldl (fun m b => m.bind b.1 b.2) m
    .ok (.memory m, [.persistenceDisabled c.users.length c.serviceTokenUsers.length])

/-- The settings for the check of credentials. -/
def authSettings (c : Config) : Auth.Settings :=
  ⟨c.server.secret, c.server.serviceTokens⟩

end Config

end Foreman
