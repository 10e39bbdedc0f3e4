/-
Who may change a password.

A change of password is for callers with the trust of a reset token, and only the mark
of reset tokens gives it.  Behind the mark stands a signed token, and the store has to
hold a live reset token for the email that it names.  The two are not compared.  A
signed token that names the email does, also one that was issued for a login, or for a
reset that has been asked for again; what cannot be done without is the live token.

The stores may fail here.  A failing store gives no trust, so nothing is asked of them.
-/
import Foreman.Proofs.Auth.Issuing
import Foreman.Proofs.Auth.Resolution
import Foreman.Proofs.Store.Resets

namespace Foreman

open Text

/-! ### Found accounts -/

theorem Identity.email_ofRow {row : UserRow} {who : Identity} (h : Identity.ofRow row = .ok who) :
    who.email = row.email := by
  rw [ofRow] at h
  split at h
  · cases h
  · split at h
    · cases h
    · cases h
      rfl

theorem Database.row_of_fetchIdentity {db : Database} {selects : UserRow → Bool} {who : Identity}
    (h : (db.fetchIdentity selects).1 = .ok (some who)) :
    ∃ row, selects row = true ∧ Identity.ofRow row = .ok who := by
  rw [fetchIdentity] at h
  split at h
  · cases h
  · cases h
  · rename_i row _ hquery
    have hread := read_of_query (congrArg Prod.fst hquery)
    obtain ⟨rows, -, hfind⟩ := Option.map_eq_some_iff.mp hread
    refine ⟨row, List.find?_some hfind, ?_⟩
    cases hrow : Identity.ofRow row with
    | error e =>
        rw [hrow] at h
        cases h
    | ok i =>
        rw [hrow] at h
        obtain rfl := Option.some.inj (Except.ok.inj h)
        rfl

namespace Store

/-- An account has the email under which it is found, once both are normalized. -/
theorem normalizeEmail_of_found {s : Store} {email : String} {who : Identity}
    (h : (s.identityByEmail email).1 = .ok (some who)) :
    normalizeEmail who.email = normalizeEmail email := by
  cases s with
  | memory m =>
      have hfind : m.identityByEmail email = some who := Except.ok.inj h
      simpa using List.find?_some hfind
  | sql db =>
      obtain ⟨row, hselects, hrow⟩ := Database.row_of_fetchIdentity h
      rw [Identity.email_ofRow hrow]
      exact (toLower_eq_normalizeEmail.mp (beq_iff_eq.mp hselects)).2

theorem identityByEmail_normalizeEmail (s : Store) (email : String) :
    s.identityByEmail (normalizeEmail email) = s.identityByEmail email := by
  cases s with
  | memory m =>
      simp only [identityByEmail, MemoryStore.identityByEmail, normalizeEmail_idem]
  | sql db =>
      simp only [identityByEmail, Database.identityByEmail, normalizeEmail_idem]

theorem getReset_normalizeEmail (s : Store) (clock : Clock) (email : String) :
    s.getReset clock (normalizeEmail email) = s.getReset clock email := by
  cases s with
  | memory m =>
      simp only [getReset, MemoryStore.getReset, MemoryStore.liveReset, MemoryStore.resetEntry,
        MemoryStore.dropReset, normalizeEmail_idem]
  | sql db =>
      simp only [getReset, Database.getReset, normalizeEmail_idem]

end Store

namespace Auth

/-! ### The schemes -/

section

variable {settings : Settings} {c : Collaborators} {now : Nat} {callerIp token : String}
  {caller : Caller}

theorem afterLookup_eq_ok {α : Type} {answer : Except StoreError α} {next : α → Resolution}
    {known : Option Caller} :
    (Resolution.afterLookup answer next).outcome = .ok known ↔
      ∃ a, answer = .ok a ∧ (next a).outcome = .ok known := by
  cases answer with
  | error e => simp [Resolution.afterLookup]
  | ok a => simp [Resolution.afterLookup]

theorem found_eq_some {trust : Trust} {answer : Except StoreError (Option Identity)} :
    (Resolution.found trust answer).outcome = .ok (some caller) ↔
      answer = .ok (some caller.identity) ∧ trust = caller.trust := by
  rw [Resolution.found, afterLookup_eq_ok]
  constructor
  · rintro ⟨found, hanswer, hcaller⟩
    obtain ⟨hfound, htrust⟩ := callerOf_eq_some.mp (Except.ok.inj hcaller)
    exact ⟨by rw [hanswer, hfound], htrust⟩
  · rintro ⟨hanswer, htrust⟩
    exact ⟨_, hanswer, congrArg Except.ok (callerOf_eq_some.mpr ⟨rfl, htrust⟩)⟩

/-- A bearer token gives the trust of a login to the account that it names. -/
theorem resolveBearer_eq_some :
    (resolveBearer settings c now token).outcome = .ok (some caller) ↔
      ∃ email, Names settings now token email ∧
        c.identityByEmail email = .ok (some caller.identity) ∧ Trust.login = caller.trust := by
  rw [resolveBearer]
  constructor
  · intro h
    cases hemail : signedEmail? settings now token with
    | none =>
        rw [hemail] at h
        cases h
    | some email =>
        rw [hemail] at h
        exact ⟨email, signedEmail?_eq_some.mp hemail, found_eq_some.mp h⟩
  · rintro ⟨email, hnames, hfound⟩
    rw [signedEmail?_eq_some.mpr hnames]
    exact found_eq_some.mpr hfound

/-- A token behind the mark of reset tokens gives their trust to the account that it names, if
that has a live reset token. -/
theorem resolveReset_eq_some :
    (resolveReset settings c now token).outcome = .ok (some caller) ↔
      ∃ email live, Names settings now token email ∧ c.resetToken email = .ok (some live) ∧
        c.identityByEmail email = .ok (some caller.identity) ∧ Trust.resetToken = caller.trust := by
  rw [resolveReset]
  constructor
  · intro h
    cases hemail : signedEmail? settings now token with
    | none =>
        rw [hemail] at h
        cases h
    | some email =>
        rw [hemail] at h
        obtain ⟨stored, hstored, hfound⟩ := afterLookup_eq_ok.mp h
        cases stored with
        | none => cases hfound
        | some live =>
            exact ⟨email, live, signedEmail?_eq_some.mp hemail, hstored, found_eq_some.mp hfound⟩
  · rintro ⟨email, live, hnames, hlive, hfound⟩
    rw [signedEmail?_eq_some.mpr hnames]
    exact afterLookup_eq_ok.mpr ⟨some live, hlive, found_eq_some.mpr hfound⟩

/-- A service token gives no other trust than its own. -/
theorem trust_of_resolveService
    (h : (resolveService settings c callerIp token).outcome = .ok (some caller)) :
    caller.trust = .serviceToken := by
  rw [resolveService] at h
  split at h
  · cases h
  · obtain ⟨user, -, hnext⟩ := afterLookup_eq_ok.mp h
    split at hnext
    · cases hnext
    · split at hnext
      · cases hnext
      · exact (found_eq_some.mp hnext).2.symm

variable {header : Option String} {who : Identity}

/-- A caller is known by the scheme that the header's mark chooses. -/
theorem resolve_eq_some :
    (resolve settings c now callerIp header).outcome = .ok (some caller) ↔
      (∃ token, header = some token ∧ Unmarked token ∧
        (resolveBearer settings c now token).outcome = .ok (some caller)) ∨
      (∃ token, header = some (resetPasswordMark ++ token) ∧
        (resolveReset settings c now token).outcome = .ok (some caller)) ∨
      ∃ r, header = some (serviceMark ++ r) ∧
        (resolveService settings c callerIp (serviceMark ++ r)).outcome = .ok (some caller) := by
  rw [resolve]
  constructor
  · intro h
    cases header with
    | none => cases h
    | some header =>
        rcases header_cases header with rfl | ⟨token, rfl⟩ | ⟨r, rfl⟩ | hunmarked
        · rw [parse_empty] at h
          cases h
        · rw [parse_resetPassword] at h
          exact .inr (.inl ⟨token, rfl, h⟩)
        · rw [parse_service] at h
          exact .inr (.inr ⟨r, rfl, h⟩)
        · rw [parse_unmarked hunmarked] at h
          exact .inl ⟨header, rfl, hunmarked, h⟩
  · rintro (⟨token, rfl, hunmarked, h⟩ | ⟨token, rfl, h⟩ | ⟨r, rfl, h⟩)
    · rw [parse_unmarked hunmarked]
      exact h
    · rw [parse_resetPassword]
      exact h
    · rw [parse_service]
      exact h

/-- The trust of a login comes from a header without a mark. -/
theorem resolve_login_iff :
    (resolve settings c now callerIp header).outcome = .ok (some ⟨who, .login⟩) ↔
      ∃ token email, header = some token ∧ Unmarked token ∧ Names settings now token email ∧
        c.identityByEmail email = .ok (some who) := by
  rw [resolve_eq_some]
  constructor
  · rintro (⟨token, rfl, hunmarked, h⟩ | ⟨token, rfl, h⟩ | ⟨r, rfl, h⟩)
    · obtain ⟨email, hnames, hfound, -⟩ := resolveBearer_eq_some.mp h
      exact ⟨token, email, rfl, hunmarked, hnames, hfound⟩
    · obtain ⟨email, live, -, -, -, htrust⟩ := resolveReset_eq_some.mp h
      cases htrust
    · cases trust_of_resolveService h
  · rintro ⟨token, email, rfl, hunmarked, hnames, hfound⟩
    exact .inl ⟨token, rfl, hunmarked, resolveBearer_eq_some.mpr ⟨email, hnames, hfound, rfl⟩⟩

/-- The trust of a reset token comes from a header with their mark. -/
theorem resolve_resetToken_iff :
    (resolve settings c now callerIp header).outcome = .ok (some ⟨who, .resetToken⟩) ↔
      ∃ token email live, header = some (resetPasswordMark ++ token) ∧
        Names settings now token email ∧ c.resetToken email = .ok (some live) ∧
        c.identityByEmail email = .ok (some who) := by
  rw [resolve_eq_some]
  constructor
  · rintro (⟨token, rfl, -, h⟩ | ⟨token, rfl, h⟩ | ⟨r, rfl, h⟩)
    · obtain ⟨email, -, -, htrust⟩ := resolveBearer_eq_some.mp h
      cases htrust
    · obtain ⟨email, live, hnames, hlive, hfound, -⟩ := resolveReset_eq_some.mp h
      exact ⟨token, email, live, rfl, hnames, hlive, hfound⟩
    · cases trust_of_resolveService h
  · rintro ⟨token, email, live, rfl, hnames, hlive, hfound⟩
    exact .inr (.inl ⟨token, rfl, resolveReset_eq_some.mpr ⟨email, live, hnames, hlive, hfound, rfl⟩⟩)

/-- The gate lets nobody pass but the caller, with the trust of a reset token. -/
theorem authorizedPasswordChange_eq_some {known : Option Caller} :
    authorizedPasswordChange known = some caller ↔
      known = some caller ∧ caller.trust = .resetToken := by
  rw [authorizedPasswordChange, withTrust, Option.filter_eq_some_iff, beq_iff_eq]

end

/-! ### Changing a password -/

/-- The email that an accepted token names is normalized. -/
theorem Names.normalized {settings : Settings} {now : Nat} {token email : String}
    (h : Names settings now token email) : normalizeEmail email = email := by
  obtain ⟨secret, claims, -, -, rfl⟩ := h
  exact normalizeEmail_idem claims.subject

section

variable (settings : Settings) (clock : Clock) (s : Store) (callerIp : String)

/-- A signed token is accepted and names the email of an account, which is found by it. -/
def NamesAccount (token : String) (who : Identity) : Prop :=
  Names settings clock.unixSeconds token (normalizeEmail who.email) ∧
    (s.identityByEmail who.email).1 = .ok (some who)

/-- An account that is found by the email that a token names has that email itself. -/
theorem namesAccount_iff {token : String} {who : Identity} :
    NamesAccount settings clock s token who ↔
      ∃ email, normalizeEmail who.email = email ∧ Names settings clock.unixSeconds token email ∧
        (s.identityByEmail email).1 = .ok (some who) := by
  constructor
  · rintro ⟨hnames, hfound⟩
    refine ⟨normalizeEmail who.email, rfl, hnames, ?_⟩
    rw [s.identityByEmail_normalizeEmail]
    exact hfound
  · rintro ⟨email, rfl, hnames, hfound⟩
    refine ⟨hnames, ?_⟩
    rw [← s.identityByEmail_normalizeEmail]
    exact hfound

theorem own_email {token email : String} {who : Identity}
    (hnames : Names settings clock.unixSeconds token email)
    (hfound : (s.identityByEmail email).1 = .ok (some who)) : normalizeEmail who.email = email :=
  (Store.normalizeEmail_of_found hfound).trans hnames.normalized

theorem resolve_login_of_store {header : Option String} {who : Identity} :
    (resolve settings (s.collaborators clock) clock.unixSeconds callerIp header).outcome =
        .ok (some ⟨who, .login⟩) ↔
      ∃ token, header = some token ∧ Unmarked token ∧ NamesAccount settings clock s token who := by
  simp only [resolve_login_iff, namesAccount_iff]
  constructor
  · rintro ⟨token, email, rfl, hunmarked, hnames, hfound⟩
    exact ⟨token, rfl, hunmarked, email, own_email settings clock s hnames hfound, hnames, hfound⟩
  · rintro ⟨token, rfl, hunmarked, email, -, hnames, hfound⟩
    exact ⟨token, email, rfl, hunmarked, hnames, hfound⟩

theorem resolve_resetToken_of_store {header : Option String} {who : Identity} :
    (resolve settings (s.collaborators clock) clock.unixSeconds callerIp header).outcome =
        .ok (some ⟨who, .resetToken⟩) ↔
      ∃ token, header = some (resetPasswordMark ++ token) ∧
        NamesAccount settings clock s token who ∧
        ∃ live, (s.getReset clock who.email).1 = .ok (some live) := by
  simp only [resolve_resetToken_iff, namesAccount_iff]
  constructor
  · rintro ⟨token, email, live, rfl, hnames, hlive, hfound⟩
    have hemail := own_email settings clock s hnames hfound
    refine ⟨token, rfl, ⟨email, hemail, hnames, hfound⟩, live, ?_⟩
    rw [← s.getReset_normalizeEmail, hemail]
    exact hlive
  · rintro ⟨token, rfl, ⟨email, hemail, hnames, hfound⟩, live, hlive⟩
    refine ⟨token, email, live, rfl, hnames, ?_, hfound⟩
    rw [← s.getReset_normalizeEmail, hemail] at hlive
    exact hlive

end

/-- **A password is changed with the mark of reset tokens, a signed token and a live reset
token.**  The trust of a reset token is given to an account exactly for a header that is the mark
and a signed token that names the account, while some reset token of its email is live.  Nobody
else passes the gate.  Which reset token is live makes no difference: what logs in to an account
is good behind the mark whenever the account has a live one. -/
theorem password_changes_decided (settings : Settings) (clock : Clock) (s : Store)
    (callerIp : String) (header : Option String) :
    let outcome (header : Option String) :=
      (resolve settings (s.collaborators clock) clock.unixSeconds callerIp header).outcome
    let reset (who : Identity) := ∃ token, header = some (resetPasswordMark ++ token) ∧
      NamesAccount settings clock s token who ∧
      ∃ live, (s.getReset clock who.email).1 = .ok (some live)
    (∀ who, outcome header = .ok (some ⟨who, .resetToken⟩) ↔ reset who) ∧
    (∀ caller, (∃ known, outcome header = .ok known ∧
        authorizedPasswordChange known = some caller) ↔
      caller.trust = .resetToken ∧ reset caller.identity) ∧
    ∀ token who, outcome (some token) = .ok (some ⟨who, .login⟩) →
      (outcome (some (resetPasswordMark ++ token)) = .ok (some ⟨who, .resetToken⟩) ↔
        ∃ live, (s.getReset clock who.email).1 = .ok (some live)) := by
  intro outcome reset
  have hreset (who : Identity) :
      outcome header = .ok (some ⟨who, .resetToken⟩) ↔ reset who :=
    resolve_resetToken_of_store settings clock s callerIp
  refine ⟨hreset, ?_, ?_⟩
  · rintro ⟨who, trust⟩
    constructor
    · rintro ⟨known, houtcome, hgate⟩
      obtain ⟨rfl, htrust⟩ := authorizedPasswordChange_eq_some.mp hgate
      obtain rfl : trust = .resetToken := htrust
      exact ⟨rfl, (hreset who).mp houtcome⟩
    · rintro ⟨htrust, hwho⟩
      obtain rfl : trust = .resetToken := htrust
      exact ⟨_, (hreset who).mpr hwho, authorizedPasswordChange_eq_some.mpr ⟨rfl, rfl⟩⟩
  · intro token who hlogin
    obtain ⟨_, heq, -, hnames⟩ := (resolve_login_of_store settings clock s callerIp).mp hlogin
    obtain rfl := Option.some.inj heq
    refine (resolve_resetToken_of_store settings clock s callerIp).trans ?_
    constructor
    · rintro ⟨-, -, -, hlive⟩
      exact hlive
    · intro hlive
      exact ⟨token, rfl, hnames, hlive⟩

theorem head_ofClaims (secret : String) (c : Claims) :
    ∃ rest, (Token.ofClaims secret c).toList = 'v' :: rest :=
  ⟨_, String.toList_ofList⟩

/-- An issued token has no mark. -/
theorem unmarked_ofClaims (secret : String) (c : Claims) : Unmarked (Token.ofClaims secret c) := by
  obtain ⟨rest, hlist⟩ := head_ofClaims secret c
  refine ⟨?_, ?_, ?_⟩
  · intro h
    rw [h] at hlist
    cases hlist
  · intro r h
    rw [h, String.toList_append, toList_resetPasswordMark] at hlist
    simp at hlist
  · intro r h
    rw [h, String.toList_append, toList_serviceMark] at hlist
    simp at hlist

/-- A token that logs in to an account, and that was its reset token until another was set,
changes its password. -/
theorem replaced_token_changes_password :
    let who : Identity := ⟨⟨1⟩, "miner@example.com", true, false, .provider⟩
    let clock : Clock := Clock.atMs 0
    let token := Token.issue "secret" who.email 0 3600
    let m := (({} : MemoryStore).upsert who).setReset clock who.email token
    let s := Store.memory (m.setReset clock who.email "newer")
    let settings : Settings := { secret := some ⟨"secret"⟩ }
    let outcome (header : String) :=
      (resolve settings (s.collaborators clock) clock.unixSeconds "" (some header)).outcome
    (s.getReset clock who.email).1 = .ok (some "newer") ∧ token ≠ "newer" ∧
    outcome token = .ok (some ⟨who, .login⟩) ∧
    outcome (resetPasswordMark ++ token) = .ok (some ⟨who, .resetToken⟩) := by
  intro who clock token m s settings outcome
  have hlive : (s.getReset clock who.email).1 = .ok (some "newer") := by
    rw [Store.getReset_eq_live (s := s) rfl]
    show Except.ok ((m.setReset clock who.email "newer").liveReset clock who.email) = _
    rw [Store.liveReset_setReset m clock clock who.email "newer" who.email rfl, if_pos rfl]
    rfl
  have hunmarked : Unmarked token := unmarked_ofClaims "secret" _
  have hverify : Token.verify "secret" clock.unixSeconds token =
      .ok ⟨who.email, UInt64.ofNat (min (0 + 3600) (Nat.pow 2 64 - 1))⟩ := by
    refine (Token.verify_ofClaims "secret" _ clock.unixSeconds).trans ?_
    exact Token.check_eq_ok.mpr ⟨rfl, by decide +kernel, 'm', by decide +kernel, by decide⟩
  have hfound : (s.identityByEmail who.email).1 = .ok (some who) := by
    show Except.ok ([who].find? fun i => normalizeEmail i.email == normalizeEmail who.email) = _
    rw [List.find?_cons_of_pos]
    exact beq_self_eq_true (normalizeEmail who.email)
  have hnames : NamesAccount settings clock s token who :=
    ⟨⟨⟨"secret"⟩, _, rfl, hverify, rfl⟩, hfound⟩
  refine ⟨hlive, ?_, ?_, ?_⟩
  · intro h
    obtain ⟨rest, hlist⟩ := head_ofClaims "secret"
      ⟨who.email, UInt64.ofNat (min (0 + 3600) (Nat.pow 2 64 - 1))⟩
    have hhead : "newer".toList = 'v' :: rest := (congrArg String.toList h).symm.trans hlist
    exact absurd (List.cons.inj hhead).1 (by decide)
  · exact (resolve_login_of_store settings clock s "").mpr ⟨token, rfl, hunmarked, hnames⟩
  · exact (resolve_resetToken_of_store settings clock s "").mpr
      ⟨token, rfl, hnames, "newer", hlive⟩

end Auth

end Foreman
