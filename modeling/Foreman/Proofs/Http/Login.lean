/-
Requests with a login.

A token that was issued has only characters that a header may have, and no mark.  So a
request with one is resolved by its claims, and it is handled as a request of the account
that they name: it is counted, and no notice is given.
-/
import Foreman.Proofs.Auth.PasswordChange
import Foreman.Proofs.Http.Run

namespace Foreman

open Auth Text

/-! ### Issued tokens -/

namespace Auth

/-- A token that was issued can be sent in a header. -/
theorem Token.isReadable_ofClaims (secret : String) (c : Claims) :
    Http.isReadable (ofClaims secret c) = true := by
  have hletters (bytes : List UInt8) : (Base64.encode Base64.urlSafe bytes).all
      (fun c => c == '\t' || (' ' ≤ c && c ≤ '~')) = true :=
    Base64.all_encode (by decide) bytes
  rw [Http.isReadable, ofClaims, String.toList_ofList, signed, List.all_append, List.all_append,
    List.all_cons, List.all_cons, hletters, hletters]
  decide

/-- A token that was issued for the email of an account names it until it expires. -/
theorem namesAccount_issue {settings : Settings} {clock : Clock} {s : Store} {who : Identity}
    {secret : Secret} {now lifetime : Nat} (configured : settings.secret = some secret)
    (live : clock.unixSeconds < min (now + lifetime) (Nat.pow 2 64 - 1))
    (named : isBlankText who.email = false)
    (found : (s.identityByEmail who.email).1 = .ok (some who)) :
    NamesAccount settings clock s (Token.issue secret.expose who.email now lifetime) who := by
  have hfits : min (now + lifetime) (Nat.pow 2 64 - 1) < 2 ^ 64 :=
    Nat.lt_of_le_of_lt (Nat.min_le_right _ _) (by decide)
  have hlive : clock.unixSeconds <
      (UInt64.ofNat (min (now + lifetime) (Nat.pow 2 64 - 1))).toNat := by
    rw [UInt64.toNat_ofNat', Nat.mod_eq_of_lt hfits]
    exact live
  have hverify : Token.verify secret.expose clock.unixSeconds
      (Token.issue secret.expose who.email now lifetime) =
        .ok ⟨who.email, UInt64.ofNat (min (now + lifetime) (Nat.pow 2 64 - 1))⟩ :=
    (Token.verify_ofClaims _ _ _).trans
      (Token.check_eq_ok.mpr ⟨rfl, hlive, Token.isBlankText_eq_false.mp named⟩)
  exact ⟨⟨secret, _, configured, hverify, rfl⟩, found⟩

end Auth

/-! ### Requests -/

namespace Http.Service

/-- A request comes with a token that logs in to an account, and all stores are in reach. -/
structure LogsIn (s : Service) (r : Request) (token : String) (who : Identity) : Prop where
  sent : r.headers.first? "authorization" = some token
  readable : isReadable token = true
  unmarked : Unmarked token
  names : NamesAccount s.settings s.server.clock s.server.store token who
  sound : s.outage = {}

variable {s : Service} {r : Request} {token : String} {who : Identity}

/-- The request's credential is good, and nothing else is to be said. -/
theorem LogsIn.resolution_eq (h : s.LogsIn r token who) (peer : Net.SocketAddr) :
    s.resolution r peer = ⟨.ok (some ⟨who, .login⟩), []⟩ := by
  obtain ⟨hnames, hfound⟩ := h.names
  have hlookup : (s.server.store.collaborators s.server.clock).identityByEmail
      (normalizeEmail who.email) = .ok (some who) :=
    (congrArg Prod.fst (s.server.store.identityByEmail_normalizeEmail who.email)).trans hfound
  have hstores : (s.server.store.collaborators s.server.clock).during s.outage =
      s.server.store.collaborators s.server.clock := by
    rw [h.sound]
    rfl
  rw [resolution, h.sent, hstores, resolve, parse_unmarked h.unmarked]
  dsimp only
  rw [resolveBearer, signedEmail?_eq_some.mpr hnames]
  dsimp only
  rw [hlookup]
  rfl

/-- **A request with a login is routed for its account.** -/
theorem LogsIn.handle_eq (h : s.LogsIn r token who) (peer : Net.SocketAddr) (link : Nat) :
    s.handle r peer link =
      (s.modifyServer fun v => (v.bump .httpRequests).bump (.authResolved .login)).route r
        (some ⟨who, .login⟩) link := by
  have hcounted : (s.modifyServer (·.bump .httpRequests)).LogsIn r token who :=
    ⟨h.sent, h.readable, h.unmarked, h.names, h.sound⟩
  have hresolution := hcounted.resolution_eq peer
  have hmetric : Resolution.metric? (.parse (r.headers.first? "authorization"))
      ⟨.ok (some ⟨who, .login⟩), []⟩ = some (.authResolved .login) := by
    rw [h.sent, parse_unmarked h.unmarked]
    rfl
  rw [resolution] at hresolution
  rw [handle, identify]
  dsimp only
  rw [hresolution, hmetric, h.sent]
  simp only [Option.any_some, h.readable, Bool.not_true, Bool.false_eq_true, if_false]
  rfl

end Http.Service

end Foreman
