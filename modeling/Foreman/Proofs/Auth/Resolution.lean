/-
Who a header names.

Stores that answer every question are no more than four partial functions, their
`Contents`.  Over them `Answer` says, without an order of checks and without any
reading of characters, which headers name a caller and which are good but name
nobody.  `resolve_eq_ok` proves that the resolver gives exactly these answers.

The marks are what keeps the schemes apart.  No header has both, none that has one
is empty, and the scheme without a mark is left for the headers that have neither,
so a header is judged by one scheme only and gets no trust but that of this scheme.
-/
import Foreman.Auth.Lookup
import Foreman.Auth.Trust

namespace Foreman.Auth

open Text

/-! ### Marks -/

theorem stripLead?_eq_some {lead s r : String} : stripLead? lead s = some r ↔ s = lead ++ r := by
  constructor
  · intro h
    obtain ⟨rest, hrest, rfl⟩ := Option.map_eq_some_iff.mp h
    rw [← String.toList_inj, String.toList_append, String.toList_ofList]
    exact dropLead?_eq_some hrest
  · rintro rfl
    rw [stripLead?, String.toList_append, dropLead?_append, Option.map_some, String.ofList_toList]

theorem stripLead?_eq_none {lead s : String} : stripLead? lead s = none ↔ ∀ r, s ≠ lead ++ r := by
  rw [Option.eq_none_iff_forall_ne_some]
  simp only [ne_eq, stripLead?_eq_some]

theorem hasLead_iff {lead s : String} : hasLead lead s = true ↔ ∃ r, s = lead ++ r := by
  have hsome : hasLead lead s = (stripLead? lead s).isSome := by
    rw [stripLead?, Option.isSome_map]
    rfl
  rw [hsome, Option.isSome_iff_exists]
  simp only [stripLead?_eq_some]

theorem toList_resetPasswordMark : resetPasswordMark.toList = 'r' :: "esetpassword:".toList := rfl

theorem toList_serviceMark : serviceMark.toList = 's' :: "ervice:".toList := rfl

theorem resetPasswordMark_append_ne_empty (r : String) : resetPasswordMark ++ r ≠ "" := by
  intro h
  have hlist := congrArg String.toList h
  rw [String.toList_append, toList_resetPasswordMark] at hlist
  simp at hlist

theorem serviceMark_append_ne_empty (r : String) : serviceMark ++ r ≠ "" := by
  intro h
  have hlist := congrArg String.toList h
  rw [String.toList_append, toList_serviceMark] at hlist
  simp at hlist

/-- No header has both marks. -/
theorem marks_ne (r r' : String) : resetPasswordMark ++ r ≠ serviceMark ++ r' := by
  intro h
  have hlist := congrArg String.toList h
  rw [String.toList_append, String.toList_append, toList_resetPasswordMark, toList_serviceMark]
    at hlist
  simp at hlist

/-! ### Schemes -/

/-- A header without a mark. -/
def Unmarked (header : String) : Prop :=
  header ≠ "" ∧ (∀ r, header ≠ resetPasswordMark ++ r) ∧ ∀ r, header ≠ serviceMark ++ r

theorem parse_empty : Credential.parse (some "") = .absent := by
  simp [Credential.parse]

theorem parse_resetPassword (token : String) :
    Credential.parse (some (resetPasswordMark ++ token)) = .resetPassword token := by
  rw [Credential.parse, if_neg (resetPasswordMark_append_ne_empty token),
    stripLead?_eq_some.mpr rfl]

theorem parse_service (r : String) :
    Credential.parse (some (serviceMark ++ r)) = .service (serviceMark ++ r) := by
  have hreset : stripLead? resetPasswordMark (serviceMark ++ r) = none :=
    stripLead?_eq_none.mpr fun token h => marks_ne token r h.symm
  rw [Credential.parse, if_neg (serviceMark_append_ne_empty r), hreset]
  dsimp only
  rw [if_pos (hasLead_iff.mpr ⟨r, rfl⟩)]

theorem parse_unmarked {header : String} (h : Unmarked header) :
    Credential.parse (some header) = .bearer header := by
  obtain ⟨hne, hreset, hservice⟩ := h
  rw [Credential.parse, if_neg hne, stripLead?_eq_none.mpr hreset]
  dsimp only
  rw [if_neg]
  rw [hasLead_iff]
  rintro ⟨r, hr⟩
  exact hservice r hr

/-- A header is empty, or has one of the marks, or none. -/
theorem header_cases (header : String) :
    header = "" ∨ (∃ token, header = resetPasswordMark ++ token) ∨
      (∃ r, header = serviceMark ++ r) ∨ Unmarked header := by
  by_cases hne : header = ""
  · exact .inl hne
  · by_cases hreset : ∃ token, header = resetPasswordMark ++ token
    · exact .inr (.inl hreset)
    · by_cases hservice : ∃ r, header = serviceMark ++ r
      · exact .inr (.inr (.inl hservice))
      · exact .inr (.inr (.inr ⟨hne, not_exists.mp hreset, not_exists.mp hservice⟩))

/-! ### What the stores say -/

/-- What is in stores that answer every question. -/
structure Contents where
  byId : UserId → Option Identity
  byEmail : String → Option Identity
  /-- The live reset token of an email. -/
  resetToken : String → Option String
  /-- The text to which a service token is bound. -/
  binding : String → Option String

/-- Stores with these contents. -/
def Contents.stores (c : Contents) : Collaborators where
  identityById id := .ok (c.byId id)
  identityByEmail email := .ok (c.byEmail email)
  resetToken email := .ok (c.resetToken email)
  serviceTokenUser token := .ok (c.binding token)

/-- The contents of a store in memory at an instant. -/
def Contents.ofMemory (clock : Clock) (m : MemoryStore) : Contents where
  byId id := m.identityById id
  byEmail email := m.identityByEmail email
  resetToken email := m.liveReset clock email
  binding token := m.serviceTokenUser token

/-- A store in memory answers every question. -/
theorem collaborators_memory (clock : Clock) (m : MemoryStore) :
    (Store.memory m).collaborators clock = (Contents.ofMemory clock m).stores := by
  unfold Store.collaborators Contents.stores Contents.ofMemory
  simp only [Store.getReset, ← MemoryStore.getReset_fst]
  rfl

/-- A signed token is accepted under the configured secret, and names an email. -/
def Names (settings : Settings) (now : Nat) (token email : String) : Prop :=
  ∃ secret claims, settings.secret = some secret ∧
    Token.verify secret.expose now token = .ok claims ∧ email = (trim claims.subject).toLower

theorem signedEmail?_eq_some {settings : Settings} {now : Nat} {token email : String} :
    signedEmail? settings now token = some email ↔ Names settings now token email := by
  unfold signedEmail? Names
  constructor
  · intro h
    obtain ⟨secret, hsecret, hverify⟩ := Option.bind_eq_some_iff.mp h
    obtain ⟨claims, hclaims, rfl⟩ := Option.map_eq_some_iff.mp hverify
    refine ⟨secret, claims, hsecret, ?_, rfl⟩
    cases hv : Token.verify secret.expose now token with
    | error e => simp [hv, Except.toOption] at hclaims
    | ok c =>
      rw [hv] at hclaims
      exact congrArg Except.ok (Option.some.inj hclaims)
  · rintro ⟨secret, claims, hsecret, hverify, rfl⟩
    rw [hsecret, Option.bind_some, hverify]
    rfl

/-! ### The answers -/

/-- The account that was found is the caller. -/
def callerOf (trust : Trust) (found : Option Identity) : Option Caller :=
  found.map fun who => ⟨who, trust⟩

theorem callerOf_eq_some {trust : Trust} {found : Option Identity} {caller : Caller} :
    callerOf trust found = some caller ↔ found = some caller.identity ∧ trust = caller.trust := by
  obtain ⟨who, trust'⟩ := caller
  cases found <;> simp [callerOf]

theorem callerOf_eq_none {trust : Trust} {found : Option Identity} :
    callerOf trust found = none ↔ found = none := by
  cases found <;> simp [callerOf]

/-- A header without a mark is a signed token, which names `email`. -/
def PassesLogin (settings : Settings) (now : Nat) (header email : String) : Prop :=
  Unmarked header ∧ Names settings now header email

/-- A header is the mark of reset tokens and a signed token, which names an `email` with a live
reset token. -/
def PassesReset (settings : Settings) (c : Contents) (now : Nat) (header email : String) : Prop :=
  ∃ token, header = resetPasswordMark ++ token ∧ Names settings now token email ∧
    ∃ live, c.resetToken email = some live

/-- A header has the mark of service tokens, is configured as a whole, and is bound to `id`. -/
def PassesService (settings : Settings) (c : Contents) (header : String) (id : UserId) : Prop :=
  (∃ r, header = serviceMark ++ r) ∧ header ∈ settings.serviceTokens ∧
    ∃ user, c.binding header = some user ∧ UserId.parse user = .ok id

/-- The headers that are good, and the callers that they name, if they name one. -/
inductive Answer (settings : Settings) (c : Contents) (now : Nat) :
    Option String → Option Caller → Prop where
  | absent : Answer settings c now none none
  | empty : Answer settings c now (some "") none
  | login {header email : String} (h : PassesLogin settings now header email) :
      Answer settings c now (some header) (callerOf .login (c.byEmail email))
  | reset {header email : String} (h : PassesReset settings c now header email) :
      Answer settings c now (some header) (callerOf .resetToken (c.byEmail email))
  | service {header : String} {id : UserId} (h : PassesService settings c header id) :
      Answer settings c now (some header) (callerOf .serviceToken (c.byId id))

section

variable (settings : Settings) (c : Contents) (now : Nat) (callerIp : String)

/-- A bearer token is refused, or its email is looked up. -/
theorem resolveBearer_outcome (token : String) :
    (resolveBearer settings c.stores now token).outcome =
      match signedEmail? settings now token with
      | none => .error .invalidToken
      | some email => .ok (callerOf .login (c.byEmail email)) := by
  unfold resolveBearer
  cases signedEmail? settings now token <;> rfl

/-- So is a reset token, but only where there is a live one. -/
theorem resolveReset_outcome (token : String) :
    (resolveReset settings c.stores now token).outcome =
      match signedEmail? settings now token with
      | none => .error .invalidToken
      | some email =>
        if (c.resetToken email).isSome then
          .ok (callerOf .resetToken (c.byEmail email))
        else .error .invalidToken := by
  unfold resolveReset
  cases signedEmail? settings now token with
  | none => rfl
  | some email =>
    simp only [Contents.stores, Resolution.afterLookup]
    cases c.resetToken email <;> rfl

/-- A service token is refused, or the account to which it is bound is looked up. -/
theorem resolveService_outcome (token : String) :
    (resolveService settings c.stores callerIp token).outcome =
      if token ∈ settings.serviceTokens then
        match (c.binding token).bind fun user => (UserId.parse user).toOption with
        | none => .error .invalidToken
        | some id => .ok (callerOf .serviceToken (c.byId id))
      else .error .invalidToken := by
  unfold resolveService
  by_cases hmem : token ∈ settings.serviceTokens
  · rw [if_pos hmem]
    simp only [hmem, not_true, if_false, Contents.stores, Resolution.afterLookup]
    cases c.binding token with
    | none => rfl
    | some user =>
      simp only [Option.bind_some]
      cases UserId.parse user <;> rfl
  · rw [if_neg hmem]
    simp only [hmem, not_false_iff, if_true]
    rfl

/-- Every answer is given. -/
theorem resolve_of_answer {header : Option String} {caller : Option Caller}
    (h : Answer settings c now header caller) :
    (resolve settings c.stores now callerIp header).outcome = .ok caller := by
  unfold resolve
  cases h with
  | absent => rfl
  | empty => rw [parse_empty]
  | login h =>
    obtain ⟨hunmarked, hnames⟩ := h
    rw [parse_unmarked hunmarked]
    dsimp only
    rw [resolveBearer_outcome, signedEmail?_eq_some.mpr hnames]
  | reset h =>
    obtain ⟨token, rfl, hnames, live, hlive⟩ := h
    rw [parse_resetPassword]
    dsimp only
    rw [resolveReset_outcome, signedEmail?_eq_some.mpr hnames]
    dsimp only
    rw [hlive, Option.isSome_some, if_pos rfl]
  | service h =>
    obtain ⟨⟨r, rfl⟩, hmem, user, hbound, hparse⟩ := h
    rw [parse_service]
    dsimp only
    rw [resolveService_outcome, if_pos hmem, hbound, Option.bind_some, hparse]
    rfl

/-- Whatever is not answered is refused as an invalid token. -/
theorem answer_or_refused (header : Option String) :
    (∃ caller, Answer settings c now header caller) ∨
      (resolve settings c.stores now callerIp header).outcome = .error .invalidToken := by
  unfold resolve
  cases header with
  | none => exact .inl ⟨none, .absent⟩
  | some header =>
    rcases header_cases header with rfl | ⟨token, rfl⟩ | ⟨r, rfl⟩ | hunmarked
    · exact .inl ⟨none, .empty⟩
    · rw [parse_resetPassword]
      dsimp only
      rw [resolveReset_outcome]
      cases hemail : signedEmail? settings now token with
      | none => exact .inr rfl
      | some email =>
        cases hlive : c.resetToken email with
        | none => exact .inr (by simp [hlive])
        | some live =>
          exact .inl ⟨_, .reset ⟨token, rfl, signedEmail?_eq_some.mp hemail, live, hlive⟩⟩
    · rw [parse_service]
      dsimp only
      rw [resolveService_outcome]
      by_cases hmem : serviceMark ++ r ∈ settings.serviceTokens
      · rw [if_pos hmem]
        cases hbound : c.binding (serviceMark ++ r) with
        | none => exact .inr rfl
        | some user =>
          rw [Option.bind_some]
          cases hparse : UserId.parse user with
          | error e => exact .inr rfl
          | ok id => exact .inl ⟨_, .service ⟨⟨r, rfl⟩, hmem, user, hbound, hparse⟩⟩
      · exact .inr (if_neg hmem)
    · rw [parse_unmarked hunmarked]
      dsimp only
      rw [resolveBearer_outcome]
      cases hemail : signedEmail? settings now header with
      | none => exact .inr rfl
      | some email => exact .inl ⟨_, .login ⟨hunmarked, signedEmail?_eq_some.mp hemail⟩⟩

/-- **The resolver gives the answers, and no others.** -/
theorem resolve_eq_ok (header : Option String) (caller : Option Caller) :
    (resolve settings c.stores now callerIp header).outcome = .ok caller ↔
      Answer settings c now header caller := by
  refine ⟨fun h => ?_, resolve_of_answer settings c now callerIp⟩
  rcases answer_or_refused settings c now callerIp header with ⟨answered, hanswer⟩ | hrefused
  · have hsame := resolve_of_answer settings c now callerIp hanswer
    rw [h] at hsame
    rw [Except.ok.inj hsame]
    exact hanswer
  · rw [h] at hrefused
    simp at hrefused

end

/-- A caller is answered by the scheme of its trust. -/
theorem answer_some_iff {settings : Settings} {c : Contents} {now : Nat} {header : Option String}
    {caller : Caller} :
    Answer settings c now header (some caller) ↔
      (caller.trust = .login ∧ ∃ h email, header = some h ∧ PassesLogin settings now h email ∧
        c.byEmail email = some caller.identity) ∨
      (caller.trust = .resetToken ∧ ∃ h email, header = some h ∧
        PassesReset settings c now h email ∧ c.byEmail email = some caller.identity) ∨
      (caller.trust = .serviceToken ∧ ∃ h id, header = some h ∧ PassesService settings c h id ∧
        c.byId id = some caller.identity) := by
  constructor
  · generalize hcaller : some caller = answered
    intro h
    cases h with
    | absent => simp at hcaller
    | empty => simp at hcaller
    | login h =>
      obtain ⟨hfound, htrust⟩ := callerOf_eq_some.mp hcaller.symm
      exact .inl ⟨htrust.symm, _, _, rfl, h, hfound⟩
    | reset h =>
      obtain ⟨hfound, htrust⟩ := callerOf_eq_some.mp hcaller.symm
      exact .inr (.inl ⟨htrust.symm, _, _, rfl, h, hfound⟩)
    | service h =>
      obtain ⟨hfound, htrust⟩ := callerOf_eq_some.mp hcaller.symm
      exact .inr (.inr ⟨htrust.symm, _, _, rfl, h, hfound⟩)
  · rintro (⟨htrust, h, email, rfl, hp, hfound⟩ | ⟨htrust, h, email, rfl, hp, hfound⟩ |
      ⟨htrust, h, id, rfl, hp, hfound⟩)
    · rw [← callerOf_eq_some.mpr ⟨hfound, htrust.symm⟩]
      exact .login hp
    · rw [← callerOf_eq_some.mpr ⟨hfound, htrust.symm⟩]
      exact .reset hp
    · rw [← callerOf_eq_some.mpr ⟨hfound, htrust.symm⟩]
      exact .service hp

/-- Nobody is answered without a header, or by a scheme whose checks pass. -/
theorem answer_none_iff {settings : Settings} {c : Contents} {now : Nat} {header : Option String} :
    Answer settings c now header none ↔
      header = none ∨ header = some "" ∨ ∃ h, header = some h ∧
        ((∃ email, PassesLogin settings now h email ∧ c.byEmail email = none) ∨
          (∃ email, PassesReset settings c now h email ∧ c.byEmail email = none) ∨
          ∃ id, PassesService settings c h id ∧ c.byId id = none) := by
  constructor
  · generalize hcaller : (none : Option Caller) = answered
    intro h
    cases h with
    | absent => exact .inl rfl
    | empty => exact .inr (.inl rfl)
    | login h => exact .inr (.inr ⟨_, rfl, .inl ⟨_, h, callerOf_eq_none.mp hcaller.symm⟩⟩)
    | reset h => exact .inr (.inr ⟨_, rfl, .inr (.inl ⟨_, h, callerOf_eq_none.mp hcaller.symm⟩)⟩)
    | service h =>
      exact .inr (.inr ⟨_, rfl, .inr (.inr ⟨_, h, callerOf_eq_none.mp hcaller.symm⟩)⟩)
  · rintro (rfl | rfl | ⟨h, rfl, ⟨email, hp, hfound⟩ | ⟨email, hp, hfound⟩ | ⟨id, hp, hfound⟩⟩)
    · exact .absent
    · exact .empty
    · rw [← callerOf_eq_none.mpr hfound]
      exact .login hp
    · rw [← callerOf_eq_none.mpr hfound]
      exact .reset hp
    · rw [← callerOf_eq_none.mpr hfound]
      exact .service hp

/--
**A header gets the trust of its own scheme and no other.**  Whatever the header, the
settings, the time and the contents of the stores, the resolver's outcome is

  * a login exactly if the header has neither mark, is a token that is accepted under
    the secret, and the account is found by the email that the token names;
  * a reset token exactly if the header is the mark of reset tokens and an accepted
    token, the email that it names has a live reset token, and the account is found by
    that email;
  * a service token exactly if the header has the mark of service tokens, is configured
    as it stands and bound to a text that is an id, and the account is found by that id;
  * nobody, without an error, exactly if there is no header or an empty one, or if all of
    a scheme's checks pass and only the account is not there;
  * and in every other case the error that the token is invalid.
-/
theorem resolve_by_scheme (settings : Settings) (c : Contents) (now : Nat) (callerIp : String)
    (header : Option String) :
    let outcome := (resolve settings c.stores now callerIp header).outcome
    (∀ who, outcome = .ok (some ⟨who, .login⟩) ↔
      ∃ h email, header = some h ∧ PassesLogin settings now h email ∧
        c.byEmail email = some who) ∧
    (∀ who, outcome = .ok (some ⟨who, .resetToken⟩) ↔
      ∃ h email, header = some h ∧ PassesReset settings c now h email ∧
        c.byEmail email = some who) ∧
    (∀ who, outcome = .ok (some ⟨who, .serviceToken⟩) ↔
      ∃ h id, header = some h ∧ PassesService settings c h id ∧ c.byId id = some who) ∧
    (outcome = .ok none ↔
      header = none ∨ header = some "" ∨ ∃ h, header = some h ∧
        ((∃ email, PassesLogin settings now h email ∧ c.byEmail email = none) ∨
          (∃ email, PassesReset settings c now h email ∧ c.byEmail email = none) ∨
          ∃ id, PassesService settings c h id ∧ c.byId id = none)) ∧
    ((∀ caller, outcome ≠ .ok caller) ↔ outcome = .error .invalidToken) := by
  intro outcome
  have hok (caller : Option Caller) : outcome = .ok caller ↔ Answer settings c now header caller :=
    resolve_eq_ok settings c now callerIp header caller
  refine ⟨?_, ?_, ?_, (hok none).trans answer_none_iff, ?_, ?_⟩
  · intro who
    rw [hok, answer_some_iff]
    simp
  · intro who
    rw [hok, answer_some_iff]
    simp
  · intro who
    rw [hok, answer_some_iff]
    simp
  · intro hne
    rcases answer_or_refused settings c now callerIp header with ⟨caller, hanswer⟩ | hrefused
    · exact absurd ((hok caller).mpr hanswer) (hne caller)
    · exact hrefused
  · intro hrefused caller h
    rw [h] at hrefused
    simp at hrefused

end Foreman.Auth
