/-
A store, as a caller's credential is checked against it.

A lookup answers from the store as it stands.  What a lookup leaves behind,
namely that an expired entry is gone, no later lookup can tell.
-/
import Foreman.Auth.Credential
import Foreman.Store

namespace Foreman.Store

/-- The answers of a store at an instant. -/
def collaborators (clock : Clock) (s : Store) : Auth.Collaborators where
  identityById id := (s.identityById id).1
  identityByEmail email := (s.identityByEmail email).1
  resetToken email := (s.getReset clock email).1
  serviceTokenUser token := (s.serviceTokenUser token).1

end Foreman.Store
