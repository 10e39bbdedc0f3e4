/-
A service in its place: on a host, with its readiness, up to its end.

Requests come over the network, if it lets them through.
-/
import Foreman.Http.Health
import Foreman.Http.Service
import Foreman.Net.Host

namespace Foreman.Http

/-- A service on a host. -/
structure Site where
  host : Net.Host
  service : Service
  isReady : Bool := false
  /-- New connections are accepted. -/
  isAccepting : Bool := true

namespace Site

/-- Readiness is declared or withdrawn. -/
def markReady (ready : Bool) (s : Site) : Site := { s with isReady := ready }

/-- A request from an address over a link; there is no response if it does not get through. -/
def request (r : Request) (peer : Net.SocketAddr) (l : Server.Link) (s : Site) :
    Option Response × Site :=
  if s.host.isReachable ∧ s.isAccepting then
    let (link, server) := s.service.server.addLink l
    let (response, service) := { s.service with server := server }.handle r peer link
    (some (response.sentFor r), { s with service := service.modifyServer Server.settle })
  else (none, s)

/-- A request about the service's health. -/
def health (r : Request) (s : Site) : Option Response :=
  if s.host.isReachable then some ((Http.health s.isReady r s.service.server).sentFor r) else none

/-- No more connections are accepted. -/
def stopAccepting (s : Site) : Site := { s with isAccepting := false }

/-- Readiness is withdrawn, no more connections are accepted, the workers are disconnected
and the pipeline drains. -/
def shutdown (s : Site) : Site :=
  let s := (s.markReady false).stopAccepting
  { s with service := s.service.modifyServer Server.shutdown }

/-- Nothing is under way any more. -/
def isDrained (s : Site) : Bool := s.service.server.isDrained

end Site

end Foreman.Http
