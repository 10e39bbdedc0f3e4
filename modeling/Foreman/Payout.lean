/-
When a recorded result earns its worker a reward, and what the reward says.

The decision looks at the server's own count alone, so nothing that a worker
writes into a frame has a part in it.
-/
import Foreman.Clock
import Foreman.Event
import Foreman.Store.Error

namespace Foreman

/-- Every `threshold`-th result of a provider is rewarded; none if it is zero. -/
structure Payout where
  threshold : Nat := 1
deriving DecidableEq

namespace Payout

/-- The result that brought the count to this tally earns a reward. -/
def pays (p : Payout) (tally : WorkTally) : Bool :=
  p.threshold > 0 && tally.providerResults > 0 && tally.providerResults % p.threshold == 0

/-- The reward for an event: to its worker, for its hash, with the count that was reached. -/
def reward (clock : Clock) (event : WorkEvent) (tally : WorkTally) : RewardEvent where
  target := event.workerKey
  payload := .rewardEarned {
    hash := event.result.hash
    requesterId := event.requesterId
    totalResults := UInt64.ofNat tally.providerResults
    awardedAtMs := clock.unixMs }

theorem pays_iff (p : Payout) (tally : WorkTally) :
    p.pays tally = true ↔
      0 < p.threshold ∧ 0 < tally.providerResults ∧ p.threshold ∣ tally.providerResults := by
  simp [pays, Nat.dvd_iff_mod_eq_zero, and_assoc]

end Payout

end Foreman
