/-
The messages between the server and its workers, and their JSON form.

Each message is a record tagged with its type.  The members are written in one
order; they are read in any order, with members of other names ignored.
-/
import Foreman.WorkerKey
import Foreman.Json.Printer
import Foreman.Json.Record

namespace Foreman

/-- A proof of work that a worker computed for a request. -/
structure WorkResult where
  requestId : String
  requesterId : UserId
  hash : String
  work : String
  difficultyMultiplier : UInt32
deriving DecidableEq

/-- Work for any worker that picks it up. -/
structure WorkOrder where
  requestId : String
  requesterId : UserId
  hash : String
  difficultyMultiplier : UInt32
deriving DecidableEq

/-- A reward that the receiving worker earned. -/
structure Reward where
  hash : String
  requesterId : UserId
  /-- The results credited to the worker's owner so far. -/
  totalResults : UInt64
  awardedAtMs : Int64
deriving DecidableEq

/-- What a worker says. -/
inductive WorkerMessage where
  | workResult (result : WorkResult)
deriving DecidableEq

/-- What the server says. -/
inductive ServerMessage where
  | workGenerate (order : WorkOrder)
  | rewardEarned (reward : Reward)
deriving DecidableEq

/-! ### Identifiers and numbers -/

namespace UserId

/-- An id as a string. -/
def toJson (id : UserId) : Json := .ofText id.text

/-- Reads an id from a string without blanks around it. -/
def ofJson? (j : Json) : Option UserId := j.text?.bind ofText?

end UserId

namespace UserType

/-- A kind as a string. -/
def toJson (kind : UserType) : Json := .ofText kind.name

/-- Reads a kind from its exact name. -/
def ofJson? (j : Json) : Option UserType := j.choice?.bind ofName?

end UserType

namespace Json

/-- A number of thirty-two bits. -/
def word32? (j : Json) : Option UInt32 := (j.nat? (Nat.pow 2 32)).map UInt32.ofNat

/-- A number of sixty-four bits. -/
def word64? (j : Json) : Option UInt64 := (j.nat? (Nat.pow 2 64)).map UInt64.ofNat

/-- A signed number of sixty-four bits. -/
def signed64? (j : Json) : Option Int64 := (j.int? (Nat.pow 2 63)).map Int64.ofInt

end Json

/-! ### Accounts -/

namespace Identity

/-- The names of the members of an account, in the order in which they are written. -/
def names : List String := ["id", "email", "email_verified", "can_request_work", "user_type"]

/-- An account as a record. -/
def toJson (who : Identity) : Json :=
  .record [
    ("id", who.id.toJson),
    ("email", .ofText who.email),
    ("email_verified", .bool who.emailVerified),
    ("can_request_work", .bool who.canRequestWork),
    ("user_type", who.kind.toJson)]

/-- Reads an account from a record. -/
def ofJson? (j : Json) : Option Identity :=
  match j.values? names with
  | some [id, email, verified, requests, kind] => do
    return {
      id := ← UserId.ofJson? id
      email := ← email.text?
      emailVerified := ← verified.bool?
      canRequestWork := ← requests.bool?
      kind := ← UserType.ofJson? kind }
  | _ => none

end Identity

/-! ### Messages -/

/-- The name of the member that holds the type of a message. -/
def typeKey : String := "type"

namespace WorkResult

/-- The type under which results are sent. -/
def tag : String := "work_result"

/-- The names of the members of a result, in the order in which they are written. -/
def names : List String := ["request_id", "requester_id", "hash", "work", "difficulty_multiplier"]

/-- A result as a tagged record. -/
def toJson (r : WorkResult) : Json :=
  .record [
    (typeKey, .ofText tag),
    ("request_id", .ofText r.requestId),
    ("requester_id", r.requesterId.toJson),
    ("hash", .ofText r.hash),
    ("work", .ofText r.work),
    ("difficulty_multiplier", .ofNat r.difficultyMultiplier.toNat)]

/-- Reads the fields of a result. -/
def ofJson? (j : Json) : Option WorkResult :=
  match j.values? names with
  | some [requestId, requesterId, hash, work, difficulty] => do
    return {
      requestId := ← requestId.text?
      requesterId := ← UserId.ofJson? requesterId
      hash := ← hash.text?
      work := ← work.text?
      difficultyMultiplier := ← difficulty.word32? }
  | _ => none

end WorkResult

namespace WorkOrder

/-- The type under which orders are sent. -/
def tag : String := "work_generate"

/-- The names of the members of an order, in the order in which they are written. -/
def names : List String := ["request_id", "requester_id", "hash", "difficulty_multiplier"]

/-- An order as a tagged record. -/
def toJson (o : WorkOrder) : Json :=
  .record [
    (typeKey, .ofText tag),
    ("request_id", .ofText o.requestId),
    ("requester_id", o.requesterId.toJson),
    ("hash", .ofText o.hash),
    ("difficulty_multiplier", .ofNat o.difficultyMultiplier.toNat)]

/-- Reads the fields of an order. -/
def ofJson? (j : Json) : Option WorkOrder :=
  match j.values? names with
  | some [requestId, requesterId, hash, difficulty] => do
    return {
      requestId := ← requestId.text?
      requesterId := ← UserId.ofJson? requesterId
      hash := ← hash.text?
      difficultyMultiplier := ← difficulty.word32? }
  | _ => none

end WorkOrder

namespace Reward

/-- The type under which rewards are sent. -/
def tag : String := "reward_earned"

/-- The names of the members of a reward, in the order in which they are written. -/
def names : List String := ["hash", "requester_id", "total_results", "awarded_at_unix_ms"]

/-- A reward as a tagged record. -/
def toJson (r : Reward) : Json :=
  .record [
    (typeKey, .ofText tag),
    ("hash", .ofText r.hash),
    ("requester_id", r.requesterId.toJson),
    ("total_results", .ofNat r.totalResults.toNat),
    ("awarded_at_unix_ms", .ofInt r.awardedAtMs.toInt)]

/-- Reads the fields of a reward. -/
def ofJson? (j : Json) : Option Reward :=
  match j.values? names with
  | some [hash, requesterId, total, awardedAt] => do
    return {
      hash := ← hash.text?
      requesterId := ← UserId.ofJson? requesterId
      totalResults := ← total.word64?
      awardedAtMs := ← awardedAt.signed64? }
  | _ => none

end Reward

namespace WorkerMessage

/-- A worker's message as a tagged record. -/
def toJson : WorkerMessage → Json
  | workResult r => r.toJson

/-- Reads a worker's message from a tagged record that is well formed throughout. -/
def ofJson? (j : Json) : Option WorkerMessage :=
  if j.wellFormed Json.maxDepth then
    (j.tagged? typeKey).bind fun (tag, fields) =>
      if tag = WorkResult.tag then (WorkResult.ofJson? fields).map workResult
      else none
  else none

end WorkerMessage

namespace ServerMessage

/-- A message of the server as a tagged record. -/
def toJson : ServerMessage → Json
  | workGenerate o => o.toJson
  | rewardEarned r => r.toJson

/-- Reads a message of the server from a tagged record that is well formed throughout. -/
def ofJson? (j : Json) : Option ServerMessage :=
  if j.wellFormed Json.maxDepth then
    (j.tagged? typeKey).bind fun (tag, fields) =>
      if tag = WorkOrder.tag then (WorkOrder.ofJson? fields).map workGenerate
      else if tag = Reward.tag then (Reward.ofJson? fields).map rewardEarned
      else none
  else none

end ServerMessage

namespace WorkerKey

/-- Reads a key from any string, blank ones included. -/
def ofJson? (j : Json) : Option WorkerKey := j.text?.map WorkerKey.mk

end WorkerKey

end Foreman
