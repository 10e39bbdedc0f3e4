/-
The registry at work: connections come and go, and messages are accepted for them.

Each of these happens at one stroke, whatever the loops are doing.  A message is
accepted when there is room for it and refused otherwise; nobody waits.
-/
import Foreman.Server.State

namespace Foreman.Server

/-! ### Coming and going -/

/-- Tells the loops of a connection to stop. -/
def tellStop (generation : Nat) (s : Server) : Server :=
  (s.modifyConnection generation fun c => { c with stopSignals := c.stopSignals + 1 }).wakeAll
    [.reader generation, .writer generation]

/-- Tells several connections to stop. -/
def tellStopAll (generations : List Nat) (s : Server) : Server :=
  generations.foldl (fun s g => s.tellStop g) s

/-- The server's end of a link disappears. -/
def dropLink (n : Nat) (s : Server) : Server :=
  (s.modifyLink n Link.dropServer).wake (.peer n)

/-- A new connection under a key: its read loop waits, and its first ping is due after one
interval. -/
def Connection.start (s : Server) (key : WorkerKey) (generation link : Nat) : Connection where
  key := key
  generation := generation
  link := link
  reader := .waiting s.clock.monoMs
  nextPingMs := s.clock.monoMs + s.hub.keepaliveIntervalMs

/-- A connection that held the key of a new one is told to stop. -/
def replace (key : WorkerKey) (old : Option Nat) (s : Server) : Server :=
  match old with
  | none => s
  | some g => ((s.note (.replacingConnection key g)).bump .connectionsReplaced).tellStop g

/-- Registers a link under a key and starts the loops; the read loop gets a sending end of the
work queue.  The answer is the generation.  A closed hub refuses, and the link ends. -/
def register (key : WorkerKey) (link : Nat) (s : Server) : Option Nat × Server :=
  match s.registry.register key with
  | (none, _) => (none, s.dropLink link)
  | (some (generation, old), registry) =>
    let s := { s with registry := registry }.replace key old
    let s := s.showConnected
    let s := { s with
      connections := s.connections ++ [Connection.start s key generation link]
      workSenders := s.workSenders ++ [Sender.reader generation] }
    (some generation,
      (s.wakeAll [.reader generation, .writer generation]).bump .connections)

/-- Removes a key and stops its connection; says whether the key was live. -/
def unregister (key : WorkerKey) (s : Server) : Bool × Server :=
  match s.registry.unregister key with
  | (none, _) => (false, s)
  | (some generation, registry) =>
    (true, ({ s with registry := registry }.tellStop generation).showConnected)

/-- Removes a key if it still belongs to a generation; says whether it did. -/
def release (key : WorkerKey) (generation : Nat) (s : Server) : Bool × Server :=
  match s.registry.release key generation with
  | (false, _) => (false, s)
  | (true, registry) =>
    (true, ({ s with registry := registry }.tellStop generation).showConnected)

/-- Stops all connections, accepts no more, and lets go of the hub's sending end of the work queue;
the answer is how many connections there were. -/
def closeHub (s : Server) : Nat × Server :=
  let (generations, registry) := s.registry.close
  let s := { s with registry := registry }.dropWorkSender .hub
  (generations.length, ((s.tellStopAll generations).showConnected).wake .aggregator)

/-! ### Accepting messages -/

/-- What came of offering a message to a connection. -/
inductive Offer where
  | accepted
  | full
  /-- The write loop takes no more messages. -/
  | closed
deriving DecidableEq

/-- What comes of offering a message to a connection. -/
def Connection.offer (hub : HubSettings) (c : Connection) : Offer :=
  if c.writer = .stopped then .closed
  else if c.outbox.length < max 1 hub.outboundCapacity then .accepted
  else .full

/-- Offers a message to the connection of a generation. -/
def offer (generation : Nat) (m : ServerMessage) (s : Server) : Offer × Server :=
  match s.connection? generation with
  | none => (.closed, s)
  | some c =>
    match c.offer s.hub with
    | .accepted =>
      (.accepted,
        (s.modifyConnection generation fun c => { c with outbox := c.outbox ++ [m] }).wake
          (.writer generation))
    | o => (o, s)

/-- Queues a message for a key; says whether it was accepted. -/
def sendTo (key : WorkerKey) (m : ServerMessage) (s : Server) : Bool × Server :=
  match s.registry.find key with
  | none => (false, s)
  | some generation =>
    match s.offer generation m with
    | (.accepted, s) => (true, s)
    | (.full, s) => (false, s.bump .outboundDropped)
    | (.closed, s) => (false, s)

/-- How many connections accepted a message, and how many had no room for it. -/
structure Broadcast where
  accepted : Nat := 0
  full : Nat := 0
deriving DecidableEq

/-- Counts one more offer. -/
def Broadcast.count (b : Broadcast) : Offer → Broadcast
  | .accepted => { b with accepted := b.accepted + 1 }
  | .full => { b with full := b.full + 1 }
  | .closed => b

/-- Offers a message to several connections. -/
def offerAll (m : ServerMessage) : List Nat → Broadcast → Server → Broadcast × Server
  | [], b, s => (b, s)
  | g :: gs, b, s =>
    let (o, s) := s.offer g m
    offerAll m gs (b.count o) s

/-- Queues a message for every live connection; the answer is how many accepted it. -/
def broadcast (m : ServerMessage) (s : Server) : Nat × Server :=
  let (b, s) := offerAll m (s.registry.live.map (·.2)) {} s
  (b.accepted, if b.full = 0 then s else { s with tally := s.tally.add .outboundDropped b.full })

end Foreman.Server
