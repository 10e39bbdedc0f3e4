/-
How long an issued token is good.

The seconds are those of the wall clock, counted from the epoch, and a token carries the second
in which it expires.  That second is the one of its issue plus its lifetime, or the greatest that
a token can carry, if the sum is greater.  Before it the token is accepted and from it on refused,
and the comparison is strict, so a token that could expire in the greatest second only is no good
in that second.

A token without a mark is a bearer token.  So sent in a header it makes the resolver ask one
question, for the account with the subject as its email, and once it is expired none.
-/
import Foreman.Proofs.Auth.Outage
import Foreman.Proofs.Auth.PasswordChange

namespace Foreman.Auth

open Text

/-! ### Expiry -/

/-- The last second that a token can carry. -/
def lastSecond : Nat := 2 ^ 64 - 1

/-- The second in which a token expires that is issued at `issued` for `lifetime` seconds. -/
def expiryOf (issued lifetime : Nat) : Nat := min (issued + lifetime) lastSecond

theorem expiryOf_lt (issued lifetime : Nat) : expiryOf issued lifetime < 2 ^ 64 := by
  have h : lastSecond < 2 ^ 64 := by decide
  unfold expiryOf
  omega

/-- A token that lasts is good in the second of its issue, if that is not the last one. -/
theorem lt_expiryOf {issued lifetime : Nat} (hlife : 0 < lifetime) :
    issued < expiryOf issued lifetime ↔ issued < lastSecond := by
  unfold expiryOf
  omega

/-- What a token claims that is issued for a subject. -/
def claimsOf (subject : String) (issued lifetime : Nat) : Claims :=
  ⟨subject, UInt64.ofNat (expiryOf issued lifetime)⟩

theorem expiresAt_claimsOf (subject : String) (issued lifetime : Nat) :
    (claimsOf subject issued lifetime).expiresAt.toNat = expiryOf issued lifetime := by
  show (UInt64.ofNat (expiryOf issued lifetime)).toNat = expiryOf issued lifetime
  rw [UInt64.toNat_ofNat', Nat.mod_eq_of_lt (expiryOf_lt issued lifetime)]

theorem issue_eq (secret subject : String) (issued lifetime : Nat) :
    Token.issue secret subject issued lifetime =
      Token.ofClaims secret (claimsOf subject issued lifetime) := rfl

/-! ### Issued tokens -/

/-- Whoever is found by an email is asked for once. -/
theorem asked_identifyByEmail (trust : Trust) (email : String) (stores : Collaborators) :
    (identifyByEmail trust email).asked stores = [.identityByEmail email] := by
  cases hreply : (Question.identityByEmail email).reply stores with
  | error e => exact Inquiry.asked_of_fails hreply
  | ok who => exact Inquiry.asked_of_reply hreply

section

variable {subject : String} (filled : ∃ x ∈ subject.toList, isBlank x = false)

include filled

/-- An issued token says what it was issued for until it expires, and then that it is expired. -/
theorem verify_issue (secret : String) (issued lifetime now : Nat) :
    Token.verify secret now (Token.issue secret subject issued lifetime) =
      if now < expiryOf issued lifetime then .ok (claimsOf subject issued lifetime)
      else .error .expired := by
  have hblank : isBlankText (claimsOf subject issued lifetime).subject = false :=
    Token.isBlankText_eq_false.mpr filled
  have hsays := Token.says_ofClaims secret (claimsOf subject issued lifetime)
  rw [issue_eq, hsays.verify_over_time hblank now, expiresAt_claimsOf]

variable {settings : Settings} {secret : Secret} (configured : settings.secret = some secret)

include configured

theorem signedEmail?_issue (issued lifetime now : Nat) :
    signedEmail? settings now (Token.issue secret.expose subject issued lifetime) =
      if now < expiryOf issued lifetime then some (normalizeEmail subject) else none := by
  rw [signedEmail?, configured, Option.bind_some, verify_issue filled]
  by_cases hlive : now < expiryOf issued lifetime
  · rw [if_pos hlive, if_pos hlive]
    rfl
  · rw [if_neg hlive, if_neg hlive]
    rfl

/-- The one question to which an issued token leads. -/
theorem inquire_issue (issued lifetime now : Nat) (callerIp : String) :
    inquire settings now callerIp (some (Token.issue secret.expose subject issued lifetime)) =
      if now < expiryOf issued lifetime then identifyByEmail .login (normalizeEmail subject)
      else .done (.refused []) := by
  have hunmarked : Unmarked (Token.issue secret.expose subject issued lifetime) :=
    unmarked_ofClaims secret.expose _
  rw [inquire, parse_unmarked hunmarked]
  dsimp only
  rw [inquireBearer, signedEmail?_issue filled configured]
  by_cases hlive : now < expiryOf issued lifetime
  · rw [if_pos hlive, if_pos hlive]
  · rw [if_neg hlive, if_neg hlive]

/-- **An issued token is good from its issue until its expiry, and for its subject.**  Whatever the
subject, if it is not blank, the secret and the time of issue, a token with a lifetime of one
second or more is accepted in every second before the one of its expiry, with that subject and
that expiry, and refused as expired in every second from then on; in the second of its issue it is
accepted unless that is the last one there is.  Sent as a header it makes the resolver look up the
normalized subject and nothing else, and once it is expired it is refused without a lookup. -/
theorem issued_tokens_live_until_expiry (issued : Nat) {lifetime : Nat} (lasting : 0 < lifetime) :
    let expiry := min (issued + lifetime) (2 ^ 64 - 1)
    let token := Token.issue secret.expose subject issued lifetime
    (∀ now, Token.verify secret.expose now token =
      if now < expiry then .ok ⟨subject, UInt64.ofNat expiry⟩ else .error .expired) ∧
    (UInt64.ofNat expiry).toNat = expiry ∧
    ((∃ claims, Token.verify secret.expose issued token = .ok claims) ↔ issued < 2 ^ 64 - 1) ∧
    ∀ stores now callerIp,
      (inquire settings now callerIp (some token)).asked stores =
        (if now < expiry then [.identityByEmail (normalizeEmail subject)] else []) ∧
      resolve settings stores now callerIp (some token) =
        if now < expiry then .found .login (stores.identityByEmail (normalizeEmail subject))
        else .refused [] := by
  intro expiry token
  have hverify (now : Nat) : Token.verify secret.expose now token =
      if now < expiry then .ok ⟨subject, UInt64.ofNat expiry⟩ else .error .expired :=
    verify_issue filled secret.expose issued lifetime now
  have hinquire (now : Nat) (callerIp : String) :
      inquire settings now callerIp (some token) =
        if now < expiry then identifyByEmail .login (normalizeEmail subject)
        else .done (.refused []) :=
    inquire_issue filled configured issued lifetime now callerIp
  refine ⟨hverify, expiresAt_claimsOf subject issued lifetime, ?_, ?_⟩
  · rw [hverify]
    show (∃ claims, (if issued < expiryOf issued lifetime then _ else _) = Except.ok claims) ↔
      issued < lastSecond
    rw [← lt_expiryOf lasting]
    by_cases hlive : issued < expiryOf issued lifetime
    · rw [if_pos hlive]
      exact ⟨fun _ => hlive, fun _ => ⟨_, rfl⟩⟩
    · rw [if_neg hlive]
      constructor
      · rintro ⟨claims, h⟩
        cases h
      · intro h
        exact absurd h hlive
  · intro stores now callerIp
    rw [resolve_eq_hold, hinquire]
    by_cases hlive : now < expiry
    · rw [if_pos hlive, if_pos hlive, if_pos hlive, found_eq_hold]
      exact ⟨asked_identifyByEmail .login (normalizeEmail subject) stores, rfl⟩
    · rw [if_neg hlive, if_neg hlive, if_neg hlive]
      exact ⟨rfl, rfl⟩

end

/-- A subject with capitals, blanks around it, a quote and a letter outside ASCII, and a token that
would outlive the last second. -/
theorem issued_tokens_live_until_expiry_last :
    let subject := " \"Жанна\"@Example.com\n"
    let secret : Secret := ⟨""⟩
    let settings : Settings := { secret := some secret }
    let token := Token.issue secret.expose subject (2 ^ 64 - 3) 86400
    (∃ x ∈ subject.toList, isBlank x = false) ∧
    Token.verify secret.expose (2 ^ 64 - 2) token = .ok ⟨subject, 0xffffffffffffffff⟩ ∧
    Token.verify secret.expose (2 ^ 64 - 1) token = .error .expired ∧
    ∀ stores callerIp,
      resolve settings stores (2 ^ 64 - 2) callerIp (some token) =
        .found .login (stores.identityByEmail "\"Жанна\"@example.com") := by
  intro subject secret settings token
  have filled : ∃ x ∈ subject.toList, isBlank x = false := ⟨'@', by decide +kernel, by decide⟩
  have configured : settings.secret = some secret := rfl
  have lasting : 0 < 86400 := by decide
  obtain ⟨hverify, -, -, hresolve⟩ :=
    issued_tokens_live_until_expiry filled configured (2 ^ 64 - 3) lasting
  refine ⟨filled, hverify _, hverify _, fun stores callerIp => ?_⟩
  have hnormalized : normalizeEmail subject = "\"Жанна\"@example.com" := by decide +kernel
  have h := (hresolve stores (2 ^ 64 - 2) callerIp).2
  rw [hnormalized] at h
  exact h

end Foreman.Auth
