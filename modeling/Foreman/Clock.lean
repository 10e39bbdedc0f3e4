/-
The two clocks.

The wall clock says what time it is and may stand before the epoch, where every
reading of it is zero.  The monotonic clock measures how much time has passed and
only moves forward.
-/
namespace Foreman

/-- An instant, in nanoseconds on either clock: since the epoch on the wall clock, and since
some beginning on the other. -/
structure Clock where
  wallNanos : Int
  monoNanos : Nat
deriving DecidableEq

namespace Clock

/-- The clocks at a wall time in milliseconds, before any time has passed. -/
def atMs (ms : Int) : Clock := ⟨ms * 1000000, 0⟩

/-- Whole milliseconds that have passed on the monotonic clock. -/
def monoMs (c : Clock) : Nat := c.monoNanos / 1000000

/-- Nanoseconds since the epoch, none before it. -/
def sinceEpoch (c : Clock) : Nat := c.wallNanos.toNat

/-- Whole seconds since the epoch. -/
def unixSeconds (c : Clock) : Nat := c.sinceEpoch / 1000000000

/-- Milliseconds since the epoch, in the low sixty-four bits. -/
def unixMs (c : Clock) : Int64 := Int64.ofNat (c.sinceEpoch / 1000000)

/-- The wall clock is set. -/
def setWallMs (ms : Int) (c : Clock) : Clock := { c with wallNanos := ms * 1000000 }

/-- The monotonic clock is brought to a millisecond. -/
def setMonoMs (ms : Nat) (c : Clock) : Clock := { c with monoNanos := ms * 1000000 }

/-- Time passes: both clocks move together. -/
def pass (nanos : Nat) (c : Clock) : Clock := ⟨c.wallNanos + nanos, c.monoNanos + nanos⟩

/-- Milliseconds pass. -/
def advance (ms : Nat) (c : Clock) : Clock := c.pass (ms * 1000000)

end Clock

end Foreman
