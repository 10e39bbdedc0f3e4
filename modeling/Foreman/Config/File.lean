/-
The configuration file: a TOML document as records of raw settings.

A record is a table, in which keys of other names are passed over, or an array of
its values in order.  A setting that is passed over still has to be a value that
exists: its integers have to fit a hundred and twenty-eight bits.
-/
import Foreman.Toml.Document

namespace Foreman.Toml

/-! ### Values passed over -/

/-- An integer fits a hundred and twenty-eight bits, with a sign or without. -/
def Scalar.fits : Scalar → Bool
  | .integer n => decide (-Int.pow 2 127 ≤ n) && decide (n < Int.pow 2 128)
  | _ => true

mutual

/-- Every integer of a value fits. -/
def Value.fits : Value → Bool
  | .string _ => true
  | .scalar s => s.fits
  | .array _ items => itemsFit items
  | .table _ entries => entriesFit entries

/-- Every integer of some values fits. -/
def itemsFit : List Value → Bool
  | [] => true
  | v :: vs => v.fits && itemsFit vs

/-- Every integer of some entries fits. -/
def entriesFit : List (String × Value) → Bool
  | [] => true
  | (_, v) :: es => v.fits && entriesFit es

end

/-! ### Typed values -/

namespace Value

/-- The text of a string. -/
def string? : Value → Option String
  | .string s => some s
  | _ => none

/-- The truth value. -/
def bool? : Value → Option Bool
  | .scalar (.bool b) => some b
  | _ => none

/-- A natural number of sixty-four bits. -/
def word? : Value → Option Nat
  | .scalar (.integer n) => if 0 ≤ n ∧ n < Int.pow 2 64 then some n.toNat else none
  | _ => none

/-- The items of an array. -/
def items? : Value → Option (List Value)
  | .array _ items => some items
  | _ => none

/-- The entries of a table. -/
def entries? : Value → Option Entries
  | .table _ entries => some entries
  | _ => none

end Value

/-- A setting's name, and whether an array may end before its place. -/
structure Slot where
  name : String
  mayLack : Bool

/-- The values of a record's slots, in order. -/
def Value.record? (slots : List Slot) : Value → Option (List (Option Value))
  | .table _ entries =>
    let others := entries.filter fun e => !slots.any (·.name == e.1)
    if entriesFit others then some (slots.map fun s => Entries.find entries s.name) else none
  | .array _ items =>
    if (slots.drop items.length).all (·.mayLack) then
      some ((List.range slots.length).map fun i => items[i]?)
    else none
  | _ => none

/-- An optional value, read if it is there. -/
def optional? {α : Type} (read? : Value → Option α) : Option Value → Option (Option α)
  | none => some none
  | some v => (read? v).map some

/-- A value that is read if it is there, and has a default. -/
def withDefault? {α : Type} (default : α) (read? : Value → Option α) : Option Value → Option α
  | none => some default
  | some v => read? v

end Foreman.Toml

namespace Foreman.Config

open Toml

/-- Raw settings of the server. -/
structure FileServer where
  bind : Option String := none
  metricsBind : Option String := none
  healthBind : Option String := none
  secret : Option String := none
  serviceTokens : List String := []
  outboundCapacity : Option Nat := none
  keepaliveInterval : Option Nat := none
  keepaliveTimeout : Option Nat := none
  maxFrameBytes : Option Nat := none
deriving DecidableEq

/-- Raw settings of the work pipeline. -/
structure FilePipeline where
  queueCapacity : Option Nat := none
  payoutThreshold : Option Nat := none
deriving DecidableEq

/-- Raw settings of persistence. -/
structure FilePersistence where
  enabled : Option Bool := none
  databaseUrl : Option String := none
deriving DecidableEq

/-- A raw account. -/
structure FileUser where
  id : Option String
  email : String
  kind : String
  emailVerified : Bool
  canRequestWork : Bool
deriving DecidableEq

/-- Everything a configuration file may set. -/
structure File where
  server : FileServer := {}
  pipeline : FilePipeline := {}
  persistence : FilePersistence := {}
  users : List FileUser := []
  /-- Service tokens and the texts to which they are bound, in the order of the tokens. -/
  serviceTokenUsers : List (String × String) := []
deriving DecidableEq

/-- A list of texts. -/
def strings? (v : Value) : Option (List String) :=
  v.items?.bind fun items => items.mapM Value.string?

namespace FileServer

/-- The settings, in the order of an array. -/
def slots : List Slot := [
  ⟨"bind", false⟩, ⟨"metrics_bind", false⟩, ⟨"health_bind", false⟩, ⟨"auth_hmac_secret", false⟩,
  ⟨"service_tokens", true⟩, ⟨"worker_outbound_capacity", false⟩,
  ⟨"keepalive_interval_secs", false⟩, ⟨"keepalive_timeout_secs", false⟩,
  ⟨"max_frame_bytes", false⟩]

/-- Reads the settings of the server. -/
def ofValue? (v : Value) : Option FileServer :=
  match v.record? slots with
  | some [bind, metrics, health, secret, tokens, capacity, interval, timeout, frame] => do
    return {
      bind := ← optional? Value.string? bind
      metricsBind := ← optional? Value.string? metrics
      healthBind := ← optional? Value.string? health
      secret := ← optional? Value.string? secret
      serviceTokens := ← withDefault? [] strings? tokens
      outboundCapacity := ← optional? Value.word? capacity
      keepaliveInterval := ← optional? Value.word? interval
      keepaliveTimeout := ← optional? Value.word? timeout
      maxFrameBytes := ← optional? Value.word? frame }
  | _ => none

end FileServer

/-- Reads the settings of the pipeline. -/
def FilePipeline.ofValue? (v : Value) : Option FilePipeline :=
  match v.record? [⟨"work_queue_capacity", false⟩, ⟨"payout_threshold", false⟩] with
  | some [capacity, threshold] => do
    return {
      queueCapacity := ← optional? Value.word? capacity
      payoutThreshold := ← optional? Value.word? threshold }
  | _ => none

/-- Reads the settings of persistence. -/
def FilePersistence.ofValue? (v : Value) : Option FilePersistence :=
  match v.record? [⟨"enabled", false⟩, ⟨"database_url", false⟩] with
  | some [enabled, url] => do
    return {
      enabled := ← optional? Value.bool? enabled
      databaseUrl := ← optional? Value.string? url }
  | _ => none

namespace FileUser

/-- The settings, in the order of an array. -/
def slots : List Slot := [
  ⟨"id", false⟩, ⟨"email", false⟩, ⟨"user_type", false⟩, ⟨"email_verified", true⟩,
  ⟨"can_request_work", true⟩]

/-- Reads an account; its email and its kind have to be there. -/
def ofValue? (v : Value) : Option FileUser :=
  match v.record? slots with
  | some [id, some email, some kind, verified, requests] => do
    return {
      id := ← optional? Value.string? id
      email := ← email.string?
      kind := ← kind.string?
      emailVerified := ← withDefault? false Value.bool? verified
      canRequestWork := ← withDefault? false Value.bool? requests }
  | _ => none

end FileUser

/-- Reads the bindings of service tokens, in the order of the tokens. -/
def bindings? (v : Value) : Option (List (String × String)) :=
  v.entries?.bind fun entries =>
    (entries.mapM fun (e : String × Value) => e.2.string?.map fun user => (e.1, user)).map
      fun pairs => pairs.mergeSort fun a b => decide (a.1 ≤ b.1)

namespace File

/-- Reads a file's root table. -/
def ofEntries? (entries : Entries) : Option File :=
  let slots : List Slot := [⟨"server", true⟩, ⟨"pipeline", true⟩, ⟨"persistence", true⟩,
    ⟨"users", true⟩, ⟨"service_token_users", true⟩]
  match (Value.table .header entries).record? slots with
  | some [server, pipeline, persistence, users, bindings] => do
    return {
      server := ← withDefault? {} FileServer.ofValue? server
      pipeline := ← withDefault? {} FilePipeline.ofValue? pipeline
      persistence := ← withDefault? {} FilePersistence.ofValue? persistence
      users := ← withDefault? [] (fun v => v.items?.bind (·.mapM FileUser.ofValue?)) users
      serviceTokenUsers := ← withDefault? [] bindings? bindings }
  | _ => none

/-- Reads a file's text. -/
def parse? (document : String) : Option File :=
  (Toml.parse document).bind ofEntries?

end File

end Foreman.Config
