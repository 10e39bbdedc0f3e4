/-
What travels from the read loops to the statistics, and from there back to a
worker.
-/
import Foreman.Message

namespace Foreman

/-- A worker finished a piece of work. -/
structure WorkEvent where
  workerKey : WorkerKey
  requesterId : UserId
  result : WorkResult
deriving DecidableEq

/-- A reward on its way to one worker. -/
structure RewardEvent where
  target : WorkerKey
  payload : ServerMessage
deriving DecidableEq

/-- The event of a result that came in on a connection. -/
def WorkEvent.ofResult (key : WorkerKey) (r : WorkResult) : WorkEvent :=
  ⟨key, r.requesterId, r⟩

end Foreman
