/-
What the server reports on its own account: notices for its operators, and
counters.

A notice is a value, with one function for its wording and its fields.  A tally
holds the counters that have been touched.
-/
import Foreman.Auth.Trust
import Foreman.WorkerKey

namespace Foreman

/-! ### Notices -/

/-- Something an operator should know. -/
inductive Notice where
  | serviceTokenNotConfigured (callerIp fingerprint : String)
  | serviceTokenUnbound (callerIp fingerprint : String)
  | serviceTokenMisbound (fingerprint : String)
  | lookupFailed (callerIp : String)
  | keepaliveFixed (intervalSecs timeoutSecs fixedSecs : Nat)
  | noSecret
  | persistenceDisabled (users serviceTokens : Nat)
  | replacingConnection (key : WorkerKey) (oldGeneration : Nat)
  | encodingFailed (key : WorkerKey)
  | recordingFailed (worker : WorkerKey) (hash : String)
  | registrationRefused (key : WorkerKey)
  | upgradeFailed (key : WorkerKey)
  | invalidHealthBind (text : String)
  | invalidMetricsBind (text : String)
deriving DecidableEq

namespace Notice

/-- The wording of a notice. -/
def message : Notice → String
  | serviceTokenNotConfigured .. => "invalid service token attempt (not configured)"
  | serviceTokenUnbound .. => "invalid service token attempt (no bound user)"
  | serviceTokenMisbound .. => "service token bound to unparseable user id"
  | lookupFailed .. => "credential lookup failed"
  | keepaliveFixed .. =>
    "server config: keepalive_timeout must exceed keepalive_interval; using 3x interval"
  | noSecret =>
    "server auth: no auth_hmac_secret configured; bearer and reset-password tokens will be rejected"
  | persistenceDisabled .. =>
    "persistence disabled; serving identities from config and keeping stats in memory"
  | replacingConnection .. => "replacing live connection with the same key"
  | encodingFailed .. => "failed to encode server message"
  | recordingFailed .. => "failed to record work result; dropping"
  | registrationRefused .. => "worker registration refused"
  | upgradeFailed .. => "websocket upgrade failed"
  | invalidHealthBind .. => "invalid health bind address"
  | invalidMetricsBind .. => "invalid metrics bind address"

/-- The fields of a notice, by name. -/
def fields : Notice → List (String × String)
  | serviceTokenNotConfigured ip token => [("caller_ip", ip), ("token", token)]
  | serviceTokenUnbound ip token => [("caller_ip", ip), ("token", token)]
  | serviceTokenMisbound token => [("token", token)]
  | lookupFailed ip => [("caller_ip", ip)]
  | keepaliveFixed interval timeout fixed =>
    [("interval_secs", Nat.repr interval), ("timeout_secs", Nat.repr timeout),
      ("fixed_secs", Nat.repr fixed)]
  | noSecret => []
  | persistenceDisabled users tokens =>
    [("users", Nat.repr users), ("service_tokens", Nat.repr tokens)]
  | replacingConnection key old => [("key", key.text), ("old_generation", Nat.repr old)]
  | encodingFailed key => [("key", key.text)]
  | recordingFailed worker hash => [("worker", worker.text), ("hash", hash)]
  | registrationRefused key => [("key", key.text)]
  | upgradeFailed key => [("key", key.text)]
  | invalidHealthBind text => [("bind", text)]
  | invalidMetricsBind text => [("bind", text)]

/-- A notice on a line of its own. -/
def line (n : Notice) : String :=
  " ".intercalate ("WARN" :: n.message :: n.fields.map fun f => f.1 ++ "=" ++ f.2)

end Notice

/-! ### Counters -/

/-- A counter, or the one gauge, of the server. -/
inductive Metric where
  | connectedWorkers
  | connections
  | connectionsReplaced
  | framesIn
  | framesOut
  | framesRejected
  | transportErrors
  | keepaliveTimeouts
  | outboundDropped
  | workEvents
  | statsErrors
  | rewardsEmitted
  | rewardsDelivered
  | rewardsUndelivered
  | httpRequests
  | workRequests
  | upgradesDenied
  | authResolved (trust : Auth.Trust)
  | authUnknownIdentity
  /-- A credential was refused; the scheme is the one it was given under. -/
  | authInvalidToken (scheme : String)
deriving DecidableEq

/-- The name of a metric, with its label. -/
def Metric.name : Metric → String
  | connectedWorkers => "connected_workers"
  | connections => "connections_total"
  | connectionsReplaced => "connections_replaced_total"
  | framesIn => "frames_in_total"
  | framesOut => "frames_out_total"
  | framesRejected => "frames_rejected_total"
  | transportErrors => "transport_errors_total"
  | keepaliveTimeouts => "keepalive_timeouts_total"
  | outboundDropped => "outbound_dropped_total"
  | workEvents => "work_events_total"
  | statsErrors => "stats_errors_total"
  | rewardsEmitted => "rewards_emitted_total"
  | rewardsDelivered => "rewards_delivered_total"
  | rewardsUndelivered => "rewards_undelivered_total"
  | httpRequests => "http_requests_total"
  | workRequests => "work_requests_total"
  | upgradesDenied => "worker_upgrades_denied_total"
  | authResolved trust => "auth_resolved_total\x7btrust=" ++ trust.name ++ "\x7d"
  | authUnknownIdentity => "auth_unknown_identity_total"
  | authInvalidToken scheme => "auth_invalid_token_total\x7bscheme=" ++ scheme ++ "\x7d"

/-- The metrics that have been touched, with their values. -/
structure Tally where
  entries : List (Metric × Nat) := []

namespace Tally

/-- The value of a metric; one that was never touched has none. -/
def get (t : Tally) (m : Metric) : Nat :=
  ((t.entries.find? (·.1 == m)).map (·.2)).getD 0

/-- Gives a metric of a list a value, or adds it at the end. -/
def setEntry (m : Metric) (value : Nat) : List (Metric × Nat) → List (Metric × Nat)
  | [] => [(m, value)]
  | p :: r => if p.1 = m then (m, value) :: r else p :: setEntry m value r

/-- Gives a metric a value. -/
def set (m : Metric) (value : Nat) (t : Tally) : Tally :=
  ⟨setEntry m value t.entries⟩

/-- Adds to a metric. -/
def add (m : Metric) (n : Nat) (t : Tally) : Tally :=
  t.set m (t.get m + n)

/-- Counts one more. -/
def bump (m : Metric) (t : Tally) : Tally :=
  t.add m 1

/-- Giving a metric a value changes no other metric. -/
theorem get_set (m k : Metric) (n : Nat) (t : Tally) :
    (t.set m n).get k = if m = k then n else t.get k := by
  obtain ⟨entries⟩ := t
  induction entries with
  | nil => by_cases h : m = k <;> simp [set, setEntry, get, h]
  | cons p r ih =>
    by_cases hp : p.1 = m
    · by_cases hk : m = k <;> simp [set, setEntry, get, hp, hk]
    · by_cases hk : p.1 = k
      · have hmk : ¬ m = k := fun e => hp (hk.trans e.symm)
        subst hk
        simp [set, setEntry, get, hp, hmk]
      · simpa [set, setEntry, get, hp, hk] using ih

theorem get_add (m k : Metric) (n : Nat) (t : Tally) :
    (t.add m n).get k = t.get k + if m = k then n else 0 := by
  rw [add, get_set]
  by_cases h : m = k <;> simp [h]

theorem get_set_of_ne {m k : Metric} (h : m ≠ k) (n : Nat) (t : Tally) :
    (t.set m n).get k = t.get k := by
  rw [get_set, if_neg h]

theorem get_add_of_ne {m k : Metric} (h : m ≠ k) (n : Nat) (t : Tally) :
    (t.add m n).get k = t.get k := by
  rw [get_add, if_neg h, Nat.add_zero]

end Tally

end Foreman
