/-
The variables of the environment that set something.
-/
namespace Foreman.Config

/-- A variable of the environment that sets something. -/
inductive Variable where
  | bind
  | metricsBind
  | healthBind
  | secret
  | serviceTokens
  | outboundCapacity
  | keepaliveInterval
  | keepaliveTimeout
  | maxFrameBytes
  | queueCapacity
  | payoutThreshold
  | persistenceEnabled
  | databaseUrl
deriving DecidableEq

/-- The name under which a variable is set. -/
def Variable.name : Variable → String
  | bind => "BOOMPOW_BIND"
  | metricsBind => "BOOMPOW_METRICS_BIND"
  | healthBind => "BOOMPOW_HEALTH_BIND"
  | secret => "BOOMPOW_AUTH_HMAC_SECRET"
  | serviceTokens => "BOOMPOW_SERVICE_TOKENS"
  | outboundCapacity => "BOOMPOW_WORKER_OUTBOUND_CAPACITY"
  | keepaliveInterval => "BOOMPOW_KEEPALIVE_INTERVAL_SECS"
  | keepaliveTimeout => "BOOMPOW_KEEPALIVE_TIMEOUT_SECS"
  | maxFrameBytes => "BOOMPOW_MAX_FRAME_BYTES"
  | queueCapacity => "BOOMPOW_WORK_QUEUE_CAPACITY"
  | payoutThreshold => "BOOMPOW_PAYOUT_THRESHOLD"
  | persistenceEnabled => "BOOMPOW_PERSISTENCE_ENABLED"
  | databaseUrl => "BOOMPOW_DATABASE_URL"

/-- All variables. -/
def Variable.all : List Variable := [
  bind, metricsBind, healthBind, secret, serviceTokens, outboundCapacity, keepaliveInterval,
  keepaliveTimeout, maxFrameBytes, queueCapacity, payoutThreshold, persistenceEnabled, databaseUrl]

/-- The values of the variables that are set. -/
abbrev Environment := Variable → Option String

end Foreman.Config
