/-
From the configuration to a service that is ready.

The steps have an order, which shows in what is reported when several of them would
fail: the configuration, the address to listen at, the metrics, the stores, the
health, and last the listener.  Metrics and health may fail without the service.
-/
import Foreman.CommandLine
import Foreman.Config.Load
import Foreman.Http.Site

namespace Foreman

/-- What the program finds when it starts. -/
structure Surroundings where
  home : String
  environment : Config.Environment
  host : Net.Host
  clock : Clock
  /-- The id of the `n`-th account that has none. -/
  newId : Nat → UserId
  /-- The id of the `n`-th work request. -/
  requestId : Nat → String

/-- Why the service could not be started. -/
inductive StartError where
  | config (cause : Config.LoadError)
  | bind (cause : Net.BindError)
  | store (cause : Store.OpenError)
  | listen (address : Net.SocketAddr)
deriving DecidableEq

namespace StartError

/-- What went wrong, without its cause. -/
def headline : StartError → String
  | config cause => cause.headline
  | bind _ => "invalid server.bind"
  | store cause => cause.message
  | listen address => "bind http listener on " ++ address.text

/-- The cause of an error, where there is more to say. -/
def cause? : StartError → Option String
  | config cause => cause.reason?
  | bind cause => some cause.message
  | store _ => none
  | listen _ => none

/-- Everything that is said about an error. -/
def text (e : StartError) : String :=
  "Error: " ++ e.headline ++ "\n" ++
    e.cause?.elim "" fun cause => "\nCaused by:\n    " ++ cause ++ "\n"

end StartError

namespace Config

/-- How connections are served. -/
def hubSettings (c : Config) : HubSettings where
  outboundCapacity := c.server.outboundCapacity
  keepaliveIntervalMs := 1000 * c.server.keepaliveIntervalSecs
  keepaliveTimeoutMs := 1000 * c.server.keepaliveTimeoutSecs
  maxFrameBytes := c.server.maxFrameBytes

/-- The address to listen at, if none is asked for. -/
def bindAddress (c : Config) : Except Net.BindError Net.SocketAddr :=
  Net.parseBind (c.server.bind.getD CommandLine.defaultBind)

end Config

/-- Listens for what can be done without, if it is configured: a text that is no address
is worth a notice. -/
def listenAside (notice : String → Notice) (text : Option String) (h : Net.Host) :
    Net.Host × List Notice :=
  match text with
  | none => (h, [])
  | some text =>
    match Net.parseBind text with
    | .ok a => ((h.listen a).getD h, [])
    | .error _ => (h, [notice text])

/-- Starts the service that the arguments and the configuration ask for. -/
def start (request : CommandLine.Request) (source : Config.Source) (m : Surroundings) :
    Except StartError Http.Site := do
  let path := request.pathIn m.home
  let (config, notices) ← (Config.load m.newId path source m.environment).mapError .config
  let address ← match request.bind with
    | some a => pure a
    | none => config.bindAddress.mapError .bind
  let (host, metricsNotices) :=
    listenAside Notice.invalidMetricsBind config.server.metricsBind m.host
  let (store, storeNotices) ← config.openStore.mapError .store
  let host ← (host.listen address).elim (.error (.listen address)) .ok
  let (host, healthNotices) :=
    listenAside Notice.invalidHealthBind config.server.healthBind host
  let server := Server.start config.hubSettings ⟨config.pipeline.payoutThreshold⟩
    config.pipeline.queueCapacity store m.clock
  let notices := notices ++ metricsNotices ++ storeNotices ++ healthNotices
  return {
    host := host
    service := {
      server := { server with notices := notices }
      settings := config.authSettings
      requestId := m.requestId }
    isReady := true }

/-- What becomes of the program. -/
inductive Outcome where
  | refused (cause : CommandLine.Refusal)
  | failed (cause : StartError)
  | serving (site : Http.Site)

namespace Outcome

/-- What is said on the error channel. -/
def complaint : Outcome → String
  | refused cause => cause.text
  | failed cause => cause.text
  | serving _ => ""

/-- The exit code, which for a service is the one after its shutdown. -/
def exitCode : Outcome → UInt32
  | refused _ => 2
  | failed _ => 1
  | serving _ => 0

end Outcome

/-- Runs the program up to the point where it serves; `files` says what is found at a path. -/
def launch (arguments : List String) (files : String → Config.Source) (m : Surroundings) :
    Outcome :=
  match CommandLine.parse arguments with
  | .error refusal => .refused refusal
  | .ok request =>
    match start request (files (request.pathIn m.home)) m with
    | .error cause => .failed cause
    | .ok site => .serving site

end Foreman
