/-
Liveness and readiness.
-/
import Foreman.Http.Message
import Foreman.Server.State

namespace Foreman.Http

/-- Answers a request about the server's health. -/
def health (ready : Bool) (r : Request) (s : Server) : Response :=
  if r.method ≠ "GET" then .plain 405 ""
  else if r.path = "/healthz" then .plain 200 ("ok workers=" ++ Nat.repr s.connectedCount)
  else if r.path = "/readyz" then
    if ready then .plain 200 "ready" else .plain 503 "not-ready"
  else .plain 404 ""

end Foreman.Http
