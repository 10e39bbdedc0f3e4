/-
Running a server.

Tasks take turns in the order in which they came onto the agenda, and a task whose
turn it is goes on until it has nothing to do.  Time stands still while any task
has something to do; then it moves to the next instant for which a loop has set a
timer.
-/
import Foreman.Server.Pipeline

namespace Foreman.Server

/-! ### Turns -/

/-- Steps of one task, at most `fuel` of them; what is left of the fuel comes back. -/
def turn (t : Task) : Nat → Server → Nat × Server
  | 0, s => (0, s)
  | fuel + 1, s =>
    match s.step t with
    | some s => turn t fuel s
    | none => (fuel, s)

/-- Turns of the tasks on the agenda, at most `turns` of them, of at most `fuel` steps each. -/
def runAgenda (fuel : Nat) : Nat → Server → Server
  | 0, s => s
  | turns + 1, s =>
    match s.agenda with
    | [] => s
    | t :: rest => runAgenda fuel turns (turn t fuel { s with agenda := rest }).2

/-- How much is under way: every message, frame, event and reward, and every loop. -/
def load (s : Server) : Nat :=
  (s.connections.map fun c => 4 + c.outbox.length).foldr (· + ·) 0 +
    (s.links.map fun l => 2 + l.incoming.length + l.outgoing.length).foldr (· + ·) 0 +
    s.queue.items.length + s.queue.waiting.length + s.rewards.length + s.upgrades.length

/-- A number of steps that is more than enough: whatever is under way passes through a few
tasks, and is done with. -/
def enough (s : Server) : Nat := 64 * (1 + s.load)

/-- Everything that can happen without time passing happens. -/
def settle (s : Server) : Server := s.runAgenda s.enough s.enough

/-! ### Time -/

/-- The instants for which the loops of a connection have set timers, with their tasks. -/
def timers (s : Server) (c : Connection) : List (Nat × Task) :=
  (match c.reader with
    | .waiting since => [(since + s.hub.keepaliveTimeoutMs, Task.reader c.generation)]
    | _ => []) ++
  (match c.writer with
    | .idle => [(c.nextPingMs, Task.writer c.generation)]
    | .closing untilMs => [(untilMs, Task.writer c.generation)]
    | _ => [])

/-- All timers that are still to come. -/
def pending (s : Server) : List (Nat × Task) :=
  (s.connections.flatMap s.timers).filter fun t => s.clock.monoMs < t.1

/-- The next instant for which a timer is set. -/
def nextTimer (s : Server) : Option Nat :=
  (s.pending.map (·.1)).min?

/-- Time moves to an instant, and the tasks whose timers are due come onto the agenda. -/
def moveTo (ms : Nat) (s : Server) : Server :=
  let due := (s.pending.filter (·.1 ≤ ms)).map (·.2)
  { s with clock := s.clock.setMonoMs ms }.wakeAll due

/-- Time moves to an instant, and stops at every timer on the way; `fuel` bounds the stops. -/
def advanceTo (target : Nat) : Nat → Server → Server
  | 0, s => s.moveTo target
  | fuel + 1, s =>
    match s.nextTimer with
    | some t => if t ≤ target then advanceTo target fuel (s.moveTo t).settle else s.moveTo target
    | none => s.moveTo target

/-- Time passes; every stop moves it by a millisecond at least. -/
def advance (ms : Nat) (s : Server) : Server :=
  (advanceTo (s.clock.monoMs + ms) ms s).settle

/-! ### Beginning and end -/

/-- A server to which nothing has happened: its hub is open, and its aggregator and its
notifier are running. -/
def start (hub : HubSettings) (payout : Payout) (queueCapacity : Nat) (store : Store)
    (clock : Clock) : Server where
  hub := hub
  payout := payout
  clock := clock
  queue := .ofCapacity queueCapacity
  store := store

/-- The aggregator and the notifier have stopped. -/
def isDrained (s : Server) : Bool :=
  s.aggregator != some .running && s.notifier == .stopped

/-- Disconnects every worker and lets the pipeline drain. -/
def shutdown (s : Server) : Server := s.closeHub.2.settle

/-- Nobody reads the work queue any more. -/
def abandonQueue (s : Server) : Server :=
  { s with queue := { s.queue with abandoned := true, items := [] } }.wakeAll
    (s.connections.map fun (c : Connection) => Task.reader c.generation)

/-- Queues a reward from outside. -/
def addReward (r : RewardEvent) (s : Server) : Server :=
  { s with rewards := s.rewards ++ [r] }.wake .notifier

/-- No more rewards will come. -/
def endRewards (s : Server) : Server := (s.dropRewardSender .consumer).wake .notifier

end Foreman.Server
