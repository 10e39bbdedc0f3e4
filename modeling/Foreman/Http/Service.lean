/-
The service: workers connect, requesters submit work, and users ask who they are.

A request is resolved to a caller first; only then does its route matter.  A
refused credential and a failing store end the request, whatever it is for, and
change nothing.
-/
import Foreman.Auth.Lookup
import Foreman.Http.Message
import Foreman.Server.Schedule

namespace Foreman.Http

open Text

/-- The server behind the service, and what the service itself keeps. -/
structure Service where
  server : Server
  settings : Auth.Settings := {}
  outage : Auth.Outage := {}
  /-- The number of upgrades accepted so far. -/
  nextConnection : Nat := 0
  /-- The number of work requests accepted so far. -/
  accepted : Nat := 0
  /-- The id of the `n`-th work request, from one on. -/
  requestId : Nat → String

/-- The path on which workers connect. -/
def workerPath : String := "/ws/worker"

/-- The path on which work is submitted. -/
def workPath : String := "/v1/work"

/-- The path on which users ask who they are. -/
def mePath : String := "/v1/me"

/-- The greatest size of a body, in bytes. -/
def maxBodyBytes : Nat := 16 * 1024

/-- What a requester submits. -/
structure WorkRequest where
  hash : String
  difficultyMultiplier : UInt32
deriving DecidableEq

namespace WorkRequest

/-- Reads a request from a record. -/
def ofJson? (j : Json) : Option WorkRequest :=
  match j.values? ["hash", "difficulty_multiplier"] with
  | some [hash, difficulty] => do
    return { hash := ← hash.text?, difficultyMultiplier := ← difficulty.word32? }
  | _ => none

/-- A request asks for something: its hash is not blank and its difficulty is not zero. -/
def isSound (w : WorkRequest) : Bool :=
  !isBlankText w.hash && w.difficultyMultiplier != 0

/-- The request of a body that is not too long. -/
def ofBody? (body : List UInt8) : Option WorkRequest :=
  if body.length > maxBodyBytes then none
  else ((Json.ofUnits? (unitsOfBytes body)).bind ofJson?).filter isSound

/-- The order that a request becomes. -/
def order (w : WorkRequest) (requestId : String) (requester : UserId) : WorkOrder :=
  ⟨requestId, requester, w.hash, w.difficultyMultiplier⟩

end WorkRequest

namespace Service

/-- Changes the server. -/
def modifyServer (f : Server → Server) (s : Service) : Service :=
  { s with server := f s.server }

/-- The answer to a credential that is refused, for whatever reason. -/
def invalidToken : Response := .failure 403 "Invalid Token"

/-- The answer to a caller who may not do what it asks for. -/
def unauthorized : Response := .failure 403 "Unauthorized"

/-- The answer to a body that cannot be used. -/
def invalidBody : Response := .failure 400 "Invalid request body"

/-- The response that turns a connection into a socket. -/
def switching (accept : String) : Response :=
  ⟨101, [("connection", "Upgrade"), ("upgrade", "websocket"), ("sec-websocket-accept", accept)], ""⟩

/-- A worker asks to connect over a link. -/
def upgradeWorker (r : Request) (caller : Option Auth.Caller) (link : Nat) (s : Service) :
    Response × Service :=
  match Auth.authorizedProvider caller with
  | none => (unauthorized, s.modifyServer (·.bump .upgradesDenied))
  | some c =>
    match websocketAccept r.headers with
    | none => (.failure 400 "Expected WebSocket upgrade", s)
    | some accept =>
      let key := WorkerKey.forConnection c.identity.id s.nextConnection
      (switching accept,
        { s.modifyServer fun v =>
            { v with upgrades := v.upgrades ++ [(key, link)] }.wake (.upgrade link) with
          nextConnection := s.nextConnection + 1 })

/-- A requester submits work: it is offered to every worker. -/
def submitWork (r : Request) (caller : Option Auth.Caller) (s : Service) : Response × Service :=
  match (Auth.authorizedRequester caller).or (Auth.authorizedServiceToken caller) with
  | none => (unauthorized, s)
  | some c =>
    match WorkRequest.ofBody? r.body with
    | none => (invalidBody, s)
    | some w =>
      let id := s.requestId (s.accepted + 1)
      let (workers, server) :=
        s.server.broadcast (.workGenerate (w.order id c.identity.id))
      (.json 202 (.record [("request_id", .ofText id), ("workers", .ofNat workers)]),
        { s with server := server.bump .workRequests, accepted := s.accepted + 1 })

/-- A user asks who it is. -/
def me (caller : Option Auth.Caller) : Response :=
  match Auth.authenticatedUser caller with
  | some c => .json 200 c.identity.toJson
  | none => unauthorized

/-- Answers a request whose caller is known. -/
def route (r : Request) (caller : Option Auth.Caller) (link : Nat) (s : Service) :
    Response × Service :=
  if r.method = "GET" ∧ r.path = workerPath then s.upgradeWorker r caller link
  else if r.method = "POST" ∧ r.path = workPath then s.submitWork r caller
  else if r.method = "GET" ∧ r.path = mePath then (me caller, s)
  else (.failure 404 "Not Found", s)

/-- Finds out who a request comes from; the answer is an error's response where there is
one. -/
def identify (r : Request) (peer : Net.SocketAddr) (s : Service) :
    Except Response (Option Auth.Caller) × Service :=
  let ip := callerIp r.headers peer
  let header := r.headers.first? "authorization"
  if header.any (!isReadable ·) then (.error invalidToken, s)
  else
    let stores := (s.server.store.collaborators s.server.clock).during s.outage
    let resolution := Auth.resolve s.settings stores s.server.clock.unixSeconds ip header
    let s := s.modifyServer fun v =>
      let v := resolution.notices.foldl (fun v n => v.note n) v
      match resolution.metric? (.parse header) with
      | some m => v.bump m
      | none => v
    match resolution.outcome with
    | .ok caller => (.ok caller, s)
    | .error .invalidToken => (.error invalidToken, s)
    | .error (.store _) =>
      (.error (.failure 500 "Internal Server Error"), s.modifyServer (·.note (.lookupFailed ip)))

/-- Answers a request that came in over a link. -/
def handle (r : Request) (peer : Net.SocketAddr) (link : Nat) (s : Service) :
    Response × Service :=
  match (s.modifyServer (·.bump .httpRequests)).identify r peer with
  | (.error response, s) => (response, s)
  | (.ok caller, s) => s.route r caller link

end Service

end Foreman.Http
