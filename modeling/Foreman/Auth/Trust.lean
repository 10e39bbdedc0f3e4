/-
How far a caller is trusted, and what that allows.

A caller is an account together with the way in which it proved who it is.  Each
gate lets a caller pass or not, and never changes who the caller is.
-/
import Foreman.Account

namespace Foreman.Auth

/-- How a caller proved who it is. -/
inductive Trust where
  /-- An interactive login. -/
  | login
  /-- A token that an operator handed out and that does not expire. -/
  | serviceToken
  /-- A token for one change of password. -/
  | resetToken
deriving DecidableEq

/-- The name of a level of trust. -/
def Trust.name : Trust → String
  | login => "jwt"
  | serviceToken => "token/service"
  | resetToken => "token/reset_password"

/-- An account and how it proved who it is. -/
structure Caller where
  identity : Identity
  trust : Trust
deriving DecidableEq

namespace Caller

/-- The caller is a requester that may submit work, with a verified email. -/
def canSubmit (c : Caller) : Bool :=
  c.identity.emailVerified && c.identity.canRequestWork && c.identity.isRequester

/-- The caller is a provider with a verified email. -/
def canWork (c : Caller) : Bool :=
  c.identity.emailVerified && c.identity.isProvider

end Caller

/-! ### Gates -/

/-- A caller who came in with this trust. -/
def withTrust (trust : Trust) (caller : Option Caller) : Option Caller :=
  caller.filter (·.trust == trust)

/-- Anyone who logged in. -/
def authenticatedUser (caller : Option Caller) : Option Caller :=
  withTrust .login caller

/-- A verified provider who logged in. -/
def authorizedProvider (caller : Option Caller) : Option Caller :=
  (withTrust .login caller).filter (·.canWork)

/-- A requester who may submit work and logged in. -/
def authorizedRequester (caller : Option Caller) : Option Caller :=
  (withTrust .login caller).filter (·.canSubmit)

/-- A requester who may submit work and came with a service token. -/
def authorizedServiceToken (caller : Option Caller) : Option Caller :=
  (withTrust .serviceToken caller).filter (·.canSubmit)

/-- Whoever holds a live token for a change of password. -/
def authorizedPasswordChange (caller : Option Caller) : Option Caller :=
  withTrust .resetToken caller

end Foreman.Auth
