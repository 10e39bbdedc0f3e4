/-
The bounded queue between the read loops and the statistics.

There is a slot for each event that the queue may hold.  A slot is taken before
an event is put in, and freed when the event is taken out; a freed slot goes to
whoever has waited longest.
-/
import Foreman.Event

namespace Foreman.Server

/-- The queue of work events. -/
structure WorkQueue where
  /-- The events, the oldest first. -/
  items : List WorkEvent := []
  /-- The slots that nobody holds. -/
  free : Nat
  /-- The connections that wait for a slot, the longest waiting first. -/
  waiting : List Nat := []
  /-- Nobody takes events out any more. -/
  abandoned : Bool := false
deriving DecidableEq

namespace WorkQueue

/-- An empty queue; it has one slot at least. -/
def ofCapacity (capacity : Nat) : WorkQueue := { free := max 1 capacity }

/-- A slot becomes free: it goes to whoever waits, and is kept otherwise. -/
def release (q : WorkQueue) : Option Nat × WorkQueue :=
  match q.waiting with
  | [] => (none, { q with free := q.free + 1 })
  | g :: rest => (some g, { q with waiting := rest })

/-- The oldest event, with who gets its slot. -/
def take (q : WorkQueue) : Option (WorkEvent × Option Nat × WorkQueue) :=
  match q.items with
  | [] => none
  | e :: rest =>
    let (next, q) := { q with items := rest }.release
    some (e, next, q)

/-- Puts an event into a slot that is held. -/
def push (e : WorkEvent) (q : WorkQueue) : WorkQueue := { q with items := q.items ++ [e] }

/-- Takes a free slot. -/
def acquire? (q : WorkQueue) : Option WorkQueue :=
  if q.free = 0 then none else some { q with free := q.free - 1 }

/-- Waits for a slot. -/
def enqueue (g : Nat) (q : WorkQueue) : WorkQueue := { q with waiting := q.waiting ++ [g] }

/-- Waits no longer. -/
def forget (g : Nat) (q : WorkQueue) : WorkQueue :=
  { q with waiting := q.waiting.filter (· ≠ g) }

end WorkQueue

end Foreman.Server
