/-
The state of a running server.

The registry says which connection holds which key.  A connection is a read loop
and a write loop over one link, with the messages that were accepted for it.
Behind the registry stand the work queue, the statistics and the rewards on their
way back.  The loops, the statistics and the notifier are tasks; a task that may
have something to do stands on the agenda.
-/
import Foreman.Clock
import Foreman.Notice
import Foreman.Payout
import Foreman.Server.Link
import Foreman.Server.Queue
import Foreman.Store

namespace Foreman

/-- How connections are served. -/
structure HubSettings where
  /-- The messages that may wait for one connection; one may always. -/
  outboundCapacity : Nat := 64
  keepaliveIntervalMs : Nat := 10000
  /-- Silence for this long ends a connection. -/
  keepaliveTimeoutMs : Nat := 30000
  maxFrameBytes : Nat := TextFrame.defaultLimit
deriving DecidableEq

namespace Server

/-- Where a read loop stands. -/
inductive Reader where
  /-- It has waited for a frame since an instant. -/
  | waiting (sinceMs : Nat)
  /-- It has an event for the work queue. -/
  | offering (event : WorkEvent)
  /-- It waits for a slot of the work queue. -/
  | queued (event : WorkEvent)
  /-- A slot of the work queue is held for it. -/
  | granted (event : WorkEvent)
  /-- It is about to release its connection. -/
  | leaving
  | stopped
deriving DecidableEq

/-- Where a write loop stands. -/
inductive Writer where
  | idle
  /-- It is writing the text of a message, or a ping. -/
  | sending (isText : Bool)
  /-- It has written a close and waits for it to go out, up to an instant. -/
  | closing (untilMs : Nat)
  /-- It is about to release its connection. -/
  | leaving
  | stopped
deriving DecidableEq

/-- A registered connection and its two loops. -/
structure Connection where
  key : WorkerKey
  generation : Nat
  /-- The link by its number. -/
  link : Nat
  /-- The messages accepted for the connection and not taken by the write loop. -/
  outbox : List ServerMessage := []
  /-- How often the loops have been told to stop. -/
  stopSignals : Nat := 0
  reader : Reader
  writer : Writer := .idle
  nextPingMs : Nat
deriving DecidableEq

/-- The loops of a connection have been told to stop. -/
def Connection.shutdown (c : Connection) : Bool := decide (0 < c.stopSignals)

/-- Both loops of a connection have stopped. -/
def Connection.isStopped (c : Connection) : Bool :=
  c.reader == .stopped && c.writer == .stopped

/-- The keys of live connections. -/
structure Registry where
  /-- Each live key with the generation that holds it, in order of registration. -/
  live : List (WorkerKey × Nat) := []
  /-- The generation that was given out last. -/
  lastGeneration : Nat := 0
  /-- Registrations are accepted. -/
  isOpen : Bool := true
deriving DecidableEq

namespace Registry

/-- The generation that holds a key. -/
def find (r : Registry) (key : WorkerKey) : Option Nat :=
  (r.live.find? (·.1 == key)).map (·.2)

/-- The registry without a key. -/
def erase (key : WorkerKey) (r : Registry) : Registry :=
  { r with live := r.live.filter (·.1 != key) }

/-- The number of live connections. -/
def count (r : Registry) : Nat := r.live.length

/-- Gives a key to a new generation, if registrations are accepted; the answer names that
generation and the one that held the key before. -/
def register (key : WorkerKey) (r : Registry) : Option (Nat × Option Nat) × Registry :=
  if r.isOpen then
    let generation := r.lastGeneration + 1
    (some (generation, r.find key),
      { r with
        live := (r.erase key).live ++ [(key, generation)]
        lastGeneration := generation })
  else (none, r)

/-- Takes a key away; the answer is the generation that held it. -/
def unregister (key : WorkerKey) (r : Registry) : Option Nat × Registry :=
  match r.find key with
  | some generation => (some generation, r.erase key)
  | none => (none, r)

/-- Takes a key away from a generation; says whether that generation held it. -/
def release (key : WorkerKey) (generation : Nat) (r : Registry) : Bool × Registry :=
  if r.find key = some generation then (true, r.erase key) else (false, r)

/-- Takes all keys away and accepts no more; the answer is the generations that held them. -/
def close (r : Registry) : List Nat × Registry :=
  (r.live.map (·.2), { r with live := [], isOpen := false })

end Registry

/-- A stage of the pipeline behind the work queue. -/
inductive Stage where
  | running
  | stopped
deriving DecidableEq

/-- Who holds a sending end of a queue.  A queue is closed once nobody holds one. -/
inductive Sender where
  | hub
  /-- The read loop of a connection. -/
  | reader (generation : Nat)
  /-- The consumer of the work queue, from whom the rewards come. -/
  | consumer
deriving DecidableEq

/-- A task that may have something to do. -/
inductive Task where
  | reader (generation : Nat)
  | writer (generation : Nat)
  /-- The worker at the other end of a link. -/
  | peer (link : Nat)
  /-- The registration of a connection that was upgraded, over a link. -/
  | upgrade (link : Nat)
  | aggregator
  | notifier
deriving DecidableEq

end Server

/-- A running server. -/
structure Server where
  hub : HubSettings := {}
  payout : Payout := {}
  clock : Clock
  registry : Server.Registry := {}
  /-- Every connection that was ever registered, in order of generation. -/
  connections : List Server.Connection := []
  /-- The links by their numbers. -/
  links : List Server.Link := []
  queue : Server.WorkQueue
  /-- The sending ends of the work queue: the hub's, and a copy of it for each read loop. -/
  workSenders : List Server.Sender := [.hub]
  /-- The consumer of the work queue; none where the queue is read from outside. -/
  aggregator : Option Server.Stage := some .running
  rewards : List RewardEvent := []
  /-- The sending ends of the queue of rewards. -/
  rewardSenders : List Server.Sender := [.consumer]
  notifier : Server.Stage := .running
  store : Store := .memory {}
  /-- Connections that were upgraded and are not registered yet: a key and a link each. -/
  upgrades : List (WorkerKey × Nat) := []
  tally : Tally := {}
  notices : List Notice := []
  agenda : List Server.Task := []

namespace Server

/-! ### Parts of the state -/

/-- The connection of a generation. -/
def connection? (s : Server) (generation : Nat) : Option Connection :=
  s.connections.find? (·.generation == generation)

/-- Changes the connection of a generation. -/
def modifyConnection (generation : Nat) (f : Connection → Connection) (s : Server) : Server :=
  { s with connections := s.connections.map fun c => if c.generation = generation then f c else c }

/-- The link with a number. -/
def link? (s : Server) (n : Nat) : Option Link := s.links[n]?

/-- Changes the link with a number. -/
def modifyLink (n : Nat) (f : Link → Link) (s : Server) : Server :=
  { s with links := s.links.modify n f }

/-- Puts a task on the agenda, unless it is there. -/
def wake (t : Task) (s : Server) : Server :=
  if t ∈ s.agenda then s else { s with agenda := s.agenda ++ [t] }

/-- Puts several tasks on the agenda. -/
def wakeAll (ts : List Task) (s : Server) : Server := ts.foldl (fun s t => s.wake t) s

/-- Counts one more. -/
def bump (m : Metric) (s : Server) : Server := { s with tally := s.tally.bump m }

/-- Reports something to the operator. -/
def note (n : Notice) (s : Server) : Server := { s with notices := s.notices ++ [n] }

/-- The gauge of live connections shows their number. -/
def showConnected (s : Server) : Server :=
  { s with tally := s.tally.set .connectedWorkers s.registry.count }

/-- The number of live connections. -/
def connectedCount (s : Server) : Nat := s.registry.count

/-- The work queue is closed: no more work events can arrive. -/
def workEnded (s : Server) : Bool := s.workSenders.isEmpty

/-- The queue of rewards is closed: no more rewards will come. -/
def rewardsEnded (s : Server) : Bool := s.rewardSenders.isEmpty

/-- Lets go of a sending end of the work queue. -/
def dropWorkSender (x : Sender) (s : Server) : Server :=
  { s with workSenders := s.workSenders.erase x }

/-- Lets go of a sending end of the queue of rewards. -/
def dropRewardSender (x : Sender) (s : Server) : Server :=
  { s with rewardSenders := s.rewardSenders.erase x }

/-- Adds a link; the answer is its number. -/
def addLink (l : Link) (s : Server) : Nat × Server :=
  (s.links.length, { s with links := s.links ++ [l] })

end Server

end Foreman
