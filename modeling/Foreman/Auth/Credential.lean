/-
From an authorization header to a caller.

The header's first characters choose a scheme.  A scheme asks the stores for what
it needs, in a fixed order, and stops at the first answer that refuses or fails.
A store that cannot answer is never taken for a refusal.
-/
import Foreman.Auth.Token
import Foreman.Clock
import Foreman.Notice
import Foreman.Store.Error

namespace Foreman.Auth

open Text

/-! ### Credentials -/

/-- What an authorization header offers. -/
inductive Credential where
  | absent
  /-- The token behind the mark of reset tokens. -/
  | resetPassword (token : String)
  /-- The whole header, mark included, as operators configure it. -/
  | service (token : String)
  | bearer (token : String)
deriving DecidableEq

/-- The mark of reset tokens. -/
def resetPasswordMark : String := "resetpassword:"

/-- The mark of service tokens. -/
def serviceMark : String := "service:"

namespace Credential

/-- Classifies a header by its mark; marks are case-sensitive. -/
def parse : Option String → Credential
  | none => absent
  | some header =>
    if header = "" then absent
    else match stripLead? resetPasswordMark header with
      | some token => resetPassword token
      | none => if hasLead serviceMark header then service header else bearer header

/-- The name of the scheme. -/
def scheme : Credential → String
  | absent => "none"
  | resetPassword _ => "resetpassword"
  | service _ => "service"
  | bearer _ => "bearer"

/-- The text that the scheme judges. -/
def token? : Credential → Option String
  | absent => none
  | resetPassword token => some token
  | service token => some token
  | bearer token => some token

end Credential

/-! ### What is asked -/

/-- The stores as a caller's credential is checked against them. -/
structure Collaborators where
  identityById : UserId → Except StoreError (Option Identity)
  identityByEmail : String → Except StoreError (Option Identity)
  /-- The live reset token of an email. -/
  resetToken : String → Except StoreError (Option String)
  /-- The text to which a service token is bound. -/
  serviceTokenUser : String → Except StoreError (Option String)

/-- Which of the stores are out of reach. -/
structure Outage where
  identities : Bool := false
  resetTokens : Bool := false
  serviceTokens : Bool := false
deriving DecidableEq

/-- The stores in an outage: those that are out of reach fail on every call. -/
def Collaborators.during (o : Outage) (c : Collaborators) : Collaborators where
  identityById id := if o.identities then .error .unavailable else c.identityById id
  identityByEmail email := if o.identities then .error .unavailable else c.identityByEmail email
  resetToken email := if o.resetTokens then .error .unavailable else c.resetToken email
  serviceTokenUser token := if o.serviceTokens then .error .unavailable else c.serviceTokenUser token

/-- What is configured for the check of credentials. -/
structure Settings where
  /-- The secret of signed tokens; without one every signed token is refused. -/
  secret : Option Secret := none
  /-- The accepted service tokens, marks included. -/
  serviceTokens : List String := []
deriving DecidableEq

/-! ### Resolving -/

/-- Why a credential gave no answer. -/
inductive ResolveError where
  /-- Malformed, expired or unmatched, whatever the scheme. -/
  | invalidToken
  /-- A store could not answer, so the credential was not judged. -/
  | store (cause : StoreError)
deriving DecidableEq

/-- The wording of an error; a store's own words end before their cause. -/
def ResolveError.message : ResolveError → String
  | invalidToken => "invalid token"
  | store cause => "credential lookup failed: " ++ cause.headline

/-- Who a credential names, or why it was refused, and what an operator should know of it. -/
structure Resolution where
  outcome : Except ResolveError (Option Caller)
  notices : List Notice := []

namespace Resolution

/-- The credential is refused. -/
def refused (notices : List Notice) : Resolution := ⟨.error .invalidToken, notices⟩

/-- Goes on with the answer of a store. -/
def afterLookup {α : Type} (answer : Except StoreError α) (next : α → Resolution) : Resolution :=
  match answer with
  | .error e => ⟨.error (.store e), []⟩
  | .ok a => next a

/-- The caller is the account that was found, if one was. -/
def found (trust : Trust) (answer : Except StoreError (Option Identity)) : Resolution :=
  afterLookup answer fun who => ⟨.ok (who.map fun i => ⟨i, trust⟩), []⟩

end Resolution

/-- The normalized email that a signed token names. -/
def signedEmail? (settings : Settings) (now : Nat) (token : String) : Option String :=
  settings.secret.bind fun secret =>
    ((Token.verify secret.expose now token).toOption).map fun c => normalizeEmail c.subject

/-- Resolves a bearer token: the account with the email that the token names. -/
def resolveBearer (settings : Settings) (stores : Collaborators) (now : Nat) (token : String) :
    Resolution :=
  match signedEmail? settings now token with
  | none => .refused []
  | some email => .found .login (stores.identityByEmail email)

/-- Resolves a reset token: the email it names has to have a live reset token. -/
def resolveReset (settings : Settings) (stores : Collaborators) (now : Nat) (token : String) :
    Resolution :=
  match signedEmail? settings now token with
  | none => .refused []
  | some email =>
    .afterLookup (stores.resetToken email) fun
      | none => .refused []
      | some _ => .found .resetToken (stores.identityByEmail email)

/-- Resolves a service token: configured, bound, and bound to the id of an account. -/
def resolveService (settings : Settings) (stores : Collaborators) (callerIp token : String) :
    Resolution :=
  let mark := Token.fingerprint token
  if token ∉ settings.serviceTokens then .refused [.serviceTokenNotConfigured callerIp mark]
  else .afterLookup (stores.serviceTokenUser token) fun
    | none => .refused [.serviceTokenUnbound callerIp mark]
    | some text =>
      match UserId.parse text with
      | .error _ => .refused [.serviceTokenMisbound mark]
      | .ok id => .found .serviceToken (stores.identityById id)

/-- Resolves a header; without a credential the caller goes on unknown. -/
def resolve (settings : Settings) (stores : Collaborators) (now : Nat) (callerIp : String)
    (header : Option String) : Resolution :=
  match Credential.parse header with
  | .absent => ⟨.ok none, []⟩
  | .resetPassword token => resolveReset settings stores now token
  | .service token => resolveService settings stores callerIp token
  | .bearer token => resolveBearer settings stores now token

/-- What a resolution counts: a caller by trust, an account that is not there, or a
refusal by scheme.  A missing credential and a failing store count for nothing. -/
def Resolution.metric? (credential : Credential) (r : Resolution) : Option Metric :=
  if credential = .absent then none
  else match r.outcome with
    | .ok (some caller) => some (.authResolved caller.trust)
    | .ok none => some .authUnknownIdentity
    | .error .invalidToken => some (.authInvalidToken credential.scheme)
    | .error (.store _) => none

end Foreman.Auth
