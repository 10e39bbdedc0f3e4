/-
Why a store could not answer.
-/
import Foreman.WorkerKey

namespace Foreman

/-- A statement that is sent to the database. -/
inductive Statement where
  | selectUser
  | deleteReset
  | insertReset
  | selectReset
  | selectServiceToken
  | insertWork
  | countWork
deriving DecidableEq

/-- What a statement was doing, as it is said when it fails. -/
def Statement.context : Statement → String
  | selectUser => "select user (sqlite)"
  | deleteReset => "delete password_reset_tokens (sqlite)"
  | insertReset => "insert password_reset_tokens (sqlite)"
  | selectReset => "select password_reset_tokens (sqlite)"
  | selectServiceToken => "select service_tokens (sqlite)"
  | insertWork => "insert work_results (sqlite)"
  | countWork => "count work_results (sqlite)"

/-- Why a store could not answer. -/
inductive StoreError where
  /-- The store is out of reach. -/
  | unavailable
  | statement (s : Statement)
  /-- A stored account has an id that is none. -/
  | idNotUuid (text : String) (cause : IdError)
  /-- A stored account has a kind that is none. -/
  | unknownUserType (text : String) (cause : IdError)
  /-- Work came in under a key that names no account. -/
  | noOwner (key : WorkerKey)
deriving DecidableEq

namespace StoreError

/-- What went wrong, without its cause. -/
def headline : StoreError → String
  | unavailable => "database unavailable"
  | statement s => s.context
  | idNotUuid text _ => "users.id is not a uuid: " ++ text
  | unknownUserType text _ => "users.type is not a known user type: " ++ text
  | noOwner key => "worker key " ++ key.text ++ " has no owning user"

/-- The error that led to this one, where there is one to tell. -/
def cause? : StoreError → Option IdError
  | idNotUuid _ cause => some cause
  | unknownUserType _ cause => some cause
  | _ => none

/-- The wording of an error, its cause included. -/
def message (e : StoreError) : String :=
  match e.cause? with
  | some cause => e.headline ++ ": " ++ cause.message
  | none => e.headline

end StoreError

/-- The counts after a work result was recorded, that result included. -/
structure WorkTally where
  /-- Results credited to the worker's owner. -/
  providerResults : Nat
  /-- Results delivered to the requester. -/
  requesterResults : Nat
deriving DecidableEq

/-- The lifetime of a password reset token, in seconds. -/
def resetLifetimeSeconds : Nat := 24 * 60 * 60

end Foreman
