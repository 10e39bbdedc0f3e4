/-
What happens to work events: they are recorded, some of them earn a reward, and
rewards go back to the workers.

Events are consumed in order by one aggregator and rewards in order by one
notifier.  The aggregator stops when no event is left and none can come any more,
and the notifier after it, once no reward is left.
-/
import Foreman.Server.Loop

namespace Foreman.Server

/-! ### The aggregator -/

/-- Records an event; one that cannot be recorded is reported and dropped. -/
def recordEvent (e : WorkEvent) (s : Server) : Option WorkTally × Server :=
  match s.store.recordWork e with
  | (.ok tally, store) => (some tally, { s with store := store })
  | (.error _, store) =>
    (none, ({ s with store := store }.bump .statsErrors).note
      (.recordingFailed e.workerKey e.result.hash))

/-- Queues the reward that an event earned, if it earned one. -/
def rewardEvent (e : WorkEvent) (tally : WorkTally) (s : Server) : Server :=
  if s.payout.pays tally then
    ({ s with rewards := s.rewards ++ [Payout.reward s.clock e tally] }.bump .rewardsEmitted).wake
      .notifier
  else s

/-- Records an event and queues its reward. -/
def processEvent (e : WorkEvent) (s : Server) : Server :=
  match (s.bump .workEvents).recordEvent e with
  | (none, s) => s
  | (some tally, s) => s.rewardEvent e tally

/-- Takes the oldest event; its slot goes to whoever waits for one. -/
def takeEvent (s : Server) : Option (WorkEvent × Server) :=
  s.queue.take.map fun (e, next, q) => (e, { s with queue := q }.grantSlot next)

/-- A step of the aggregator; when it stops, its sending end of the queue of rewards goes with
it. -/
def aggregateStep (s : Server) : Option Server :=
  if s.aggregator = some .running then
    match s.takeEvent with
    | some (e, s) => some (s.processEvent e)
    | none =>
      if s.workEnded then
        some (({ s with aggregator := some .stopped }.dropRewardSender .consumer).wake .notifier)
      else none
  else none

/-! ### The notifier -/

/-- Offers a reward to the connection it is for. -/
def deliver (r : RewardEvent) (s : Server) : Server :=
  match s.sendTo r.target r.payload with
  | (true, s) => s.bump .rewardsDelivered
  | (false, s) => s.bump .rewardsUndelivered

/-- A step of the notifier. -/
def notifyStep (s : Server) : Option Server :=
  if s.notifier = .running then
    match s.rewards with
    | r :: rest => some ({ s with rewards := rest }.deliver r)
    | [] => if s.rewardsEnded then some { s with notifier := .stopped } else none
  else none

/-! ### Upgraded connections and workers -/

/-- The key of the connection that waits over a link to be registered, which waits no longer. -/
def takeUpgrade (link : Nat) (s : Server) : Option (WorkerKey × Server) :=
  (s.upgrades.find? (·.2 == link)).map fun u => (u.1, { s with upgrades := s.upgrades.erase u })

/-- Registers the connection that was upgraded over a link. -/
def upgradeStep (link : Nat) (s : Server) : Option Server :=
  match s.takeUpgrade link with
  | none => none
  | some (key, s) =>
    match s.register key link with
    | (some _, s) => some s
    | (none, s) => some (s.note (.registrationRefused key))

/-- The upgrade of a connection fails; it is given up, and the link with it. -/
def failUpgrade (link : Nat) (s : Server) : Server :=
  match s.takeUpgrade link with
  | none => s
  | some (key, s) => (s.note (.upgradeFailed key)).dropLink link

/-- The connection over a link. -/
def connectionOver (link : Nat) (s : Server) : Option Connection :=
  s.connections.find? (·.link == link)

/-- Something has changed on a link: the loops over it may have something to do. -/
def wakeLoops (link : Nat) (s : Server) : Server :=
  match s.connectionOver link with
  | some c => s.wakeAll [.reader c.generation, .writer c.generation]
  | none => s

/-- The worker at the other end of a link reads one frame. -/
def peerStep (link : Nat) (s : Server) : Option Server :=
  (s.link? link).bind fun l => l.peerRead.map fun l =>
    (s.modifyLink link fun _ => l).wakeLoops link

/-! ### Steps -/

/-- A step of a task, if it has something to do. -/
def step (t : Task) (s : Server) : Option Server :=
  match t with
  | .reader generation => s.readStep generation
  | .writer generation => s.writeStep generation
  | .peer link => s.peerStep link
  | .upgrade link => s.upgradeStep link
  | .aggregator => s.aggregateStep
  | .notifier => s.notifyStep

end Foreman.Server
