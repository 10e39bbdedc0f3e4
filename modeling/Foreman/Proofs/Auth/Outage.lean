/-
What a failing store makes of a credential.

Resolving a header is a conversation with the stores.  An `Inquiry` is that conversation
before it is held: an answer, or a question and what is done with the reply to it.  The
inquiry of a header is the same whatever stores it meets, and `resolve_eq_hold` says that
resolving a header is to hold its inquiry.  Because the two agree on all stores, failing
ones included, an inquiry asks what the resolver asks, in its order, and no more.

What an outage can do is then a matter of inquiries alone.  A reply either is the one
that was given before, and the inquiry goes on as before, or it fails, and then the
inquiry ends there, with an error that is nobody's refusal.
-/
import Foreman.Proofs.Account
import Foreman.Proofs.Auth.Resolution

namespace Foreman.Auth

/-! ### Questions to the stores -/

/-- A store by what it keeps. -/
inductive StoreKind where
  | identities
  | resetTokens
  | serviceTokens
deriving DecidableEq

/-- A store of this kind is out of reach. -/
def Outage.covers (o : Outage) : StoreKind → Bool
  | .identities => o.identities
  | .resetTokens => o.resetTokens
  | .serviceTokens => o.serviceTokens

/-- A question to a store. -/
inductive Question where
  | identityById (id : UserId)
  | identityByEmail (email : String)
  | resetToken (email : String)
  | serviceTokenUser (token : String)
deriving DecidableEq

namespace Question

/-- What the reply says, if there is one. -/
abbrev Reply : Question → Type
  | identityById _ => Option Identity
  | identityByEmail _ => Option Identity
  | resetToken _ => Option String
  | serviceTokenUser _ => Option String

/-- The store that is asked. -/
def store : Question → StoreKind
  | identityById _ => .identities
  | identityByEmail _ => .identities
  | resetToken _ => .resetTokens
  | serviceTokenUser _ => .serviceTokens

/-- The reply of the stores. -/
def reply (stores : Collaborators) : (q : Question) → Except StoreError q.Reply
  | identityById id => stores.identityById id
  | identityByEmail email => stores.identityByEmail email
  | resetToken email => stores.resetToken email
  | serviceTokenUser token => stores.serviceTokenUser token

/-- The stores do not reply. -/
def Fails (stores : Collaborators) (q : Question) : Prop := ∃ e, q.reply stores = .error e

end Question

/-- The stores `d` hold what the stores `c` hold, but those that are out of reach fail on every
call. -/
def Hampered (o : Outage) (c d : Collaborators) : Prop :=
  ∀ q : Question,
    if o.covers q.store = true then q.Fails d else q.reply d = q.reply c

theorem hampered_during (o : Outage) (c : Collaborators) : Hampered o c (c.during o) := by
  obtain ⟨identities, resetTokens, serviceTokens⟩ := o
  intro q
  cases q with
  | identityById id =>
      cases identities
      · rfl
      · exact ⟨.unavailable, rfl⟩
  | identityByEmail email =>
      cases identities
      · rfl
      · exact ⟨.unavailable, rfl⟩
  | resetToken email =>
      cases resetTokens
      · rfl
      · exact ⟨.unavailable, rfl⟩
  | serviceTokenUser token =>
      cases serviceTokens
      · rfl
      · exact ⟨.unavailable, rfl⟩

section

variable {o : Outage} {c d : Collaborators} {q : Question}

theorem Hampered.fails (h : Hampered o c d) (hq : o.covers q.store = true) : q.Fails d := by
  have hq' := h q
  rwa [if_pos hq] at hq'

theorem Hampered.reply_eq (h : Hampered o c d) (hq : o.covers q.store = false) :
    q.reply d = q.reply c := by
  have hq' := h q
  rwa [if_neg (by simp [hq])] at hq'

end

/-! ### Inquiries -/

/-- A conversation with the stores that is still to be held. -/
inductive Inquiry where
  | done (r : Resolution)
  | ask (q : Question) (next : q.Reply → Inquiry)

namespace Inquiry

/-- What comes of an inquiry.  A store that does not reply ends it. -/
def hold (stores : Collaborators) : Inquiry → Resolution
  | done r => r
  | ask q next =>
    match q.reply stores with
    | .error e => ⟨.error (.store e), []⟩
    | .ok a => (next a).hold stores

/-- The questions that are asked, in order; the last of them may stay without a reply. -/
def asked (stores : Collaborators) : Inquiry → List Question
  | done _ => []
  | ask q next =>
    q :: match q.reply stores with
      | .error _ => []
      | .ok a => (next a).asked stores

/-- No inquiry gives out an error of a store of its own. -/
def Judges : Inquiry → Prop
  | done r => ∀ e, r.outcome ≠ .error (.store e)
  | ask _ next => ∀ a, (next a).Judges

section

variable {stores : Collaborators} {q : Question} {next : q.Reply → Inquiry}

theorem hold_of_fails {e : StoreError} (h : q.reply stores = .error e) :
    (ask q next).hold stores = ⟨.error (.store e), []⟩ := by
  rw [hold, h]

theorem hold_of_reply {a : q.Reply} (h : q.reply stores = .ok a) :
    (ask q next).hold stores = (next a).hold stores := by
  rw [hold, h]

theorem asked_of_fails {e : StoreError} (h : q.reply stores = .error e) :
    (ask q next).asked stores = [q] := by
  rw [asked, h]

theorem asked_of_reply {a : q.Reply} (h : q.reply stores = .ok a) :
    (ask q next).asked stores = q :: (next a).asked stores := by
  rw [asked, h]

end

/-- **An inquiry ends with an error of a store exactly if a store that it asks does not reply.** -/
theorem hold_error_iff {i : Inquiry} (hi : i.Judges) (stores : Collaborators) :
    (∃ e, (i.hold stores).outcome = .error (.store e)) ↔
      ∃ q ∈ i.asked stores, q.Fails stores := by
  induction i with
  | done r =>
      constructor
      · rintro ⟨e, he⟩
        exact absurd he (hi e)
      · rintro ⟨q, hq, -⟩
        cases hq
  | ask q next ih =>
      cases hreply : q.reply stores with
      | error e =>
          rw [hold_of_fails hreply, asked_of_fails hreply]
          exact ⟨fun _ => ⟨q, List.mem_singleton_self q, e, hreply⟩, fun _ => ⟨e, rfl⟩⟩
      | ok a =>
          rw [hold_of_reply hreply, asked_of_reply hreply, ih a (hi a)]
          have hq : ¬ q.Fails stores := by
            rintro ⟨e, he⟩
            rw [hreply] at he
            cases he
          simp only [List.mem_cons, exists_eq_or_imp, hq, false_or]

section

variable {o : Outage} {c d : Collaborators}

/-- **An inquiry that asks no store in an outage does not notice it.** -/
theorem hold_of_untouched (h : Hampered o c d) {i : Inquiry}
    (hi : ∀ q ∈ i.asked c, o.covers q.store = false) :
    i.hold d = i.hold c ∧ i.asked d = i.asked c := by
  induction i with
  | done r => exact ⟨rfl, rfl⟩
  | ask q next ih =>
      have hq : o.covers q.store = false := hi q (by rw [asked]; exact List.mem_cons_self)
      have hsame := h.reply_eq hq
      cases hreply : q.reply c with
      | error e =>
          rw [hreply] at hsame
          rw [hold_of_fails hreply, hold_of_fails hsame, asked_of_fails hreply,
            asked_of_fails hsame]
          exact ⟨rfl, rfl⟩
      | ok a =>
          rw [hreply] at hsame
          rw [asked_of_reply hreply] at hi
          obtain ⟨hhold, hasked⟩ := ih a fun q' hq' => hi q' (List.mem_cons_of_mem q hq')
          rw [hold_of_reply hreply, hold_of_reply hsame, asked_of_reply hreply,
            asked_of_reply hsame, hasked]
          exact ⟨hhold, rfl⟩

/-- **One that asks a store in an outage ends with the error of a store.** -/
theorem hold_of_touched (h : Hampered o c d) {i : Inquiry}
    (hi : ∃ q ∈ i.asked c, o.covers q.store = true) :
    ∃ e, i.hold d = ⟨.error (.store e), []⟩ := by
  induction i with
  | done r =>
      obtain ⟨q, hq, -⟩ := hi
      cases hq
  | ask q next ih =>
      cases hcovers : o.covers q.store with
      | true =>
          obtain ⟨e, he⟩ := h.fails hcovers
          exact ⟨e, hold_of_fails he⟩
      | false =>
          have hsame := h.reply_eq hcovers
          cases hreply : q.reply c with
          | error e =>
              rw [hreply] at hsame
              exact ⟨e, hold_of_fails hsame⟩
          | ok a =>
              rw [hreply] at hsame
              rw [asked_of_reply hreply] at hi
              rw [hold_of_reply hsame]
              refine ih a ?_
              obtain ⟨q', hq', hcovers'⟩ := hi
              rcases List.mem_cons.mp hq' with rfl | hq'
              · rw [hcovers] at hcovers'
                cases hcovers'
              · exact ⟨q', hq', hcovers'⟩

end

end Inquiry

/-! ### The inquiry of a header -/

section

variable (settings : Settings) (now : Nat) (callerIp : String)

/-- The caller is the account that is found by an email, if one is. -/
def identifyByEmail (trust : Trust) (email : String) : Inquiry :=
  .ask (.identityByEmail email) fun who => .done ⟨.ok (callerOf trust who), []⟩

/-- The inquiry of a bearer token. -/
def inquireBearer (token : String) : Inquiry :=
  match signedEmail? settings now token with
  | none => .done (.refused [])
  | some email => identifyByEmail .login email

/-- The inquiry of a reset token. -/
def inquireReset (token : String) : Inquiry :=
  match signedEmail? settings now token with
  | none => .done (.refused [])
  | some email => .ask (.resetToken email) fun live =>
      if live.isSome then identifyByEmail .resetToken email else .done (.refused [])

/-- The inquiry of a service token. -/
def inquireService (token : String) : Inquiry :=
  let mark := Token.fingerprint token
  if token ∉ settings.serviceTokens then
    .done (.refused [.serviceTokenNotConfigured callerIp mark])
  else .ask (.serviceTokenUser token) fun
    | none => .done (.refused [.serviceTokenUnbound callerIp mark])
    | some text =>
      match UserId.parse text with
      | .error _ => .done (.refused [.serviceTokenMisbound mark])
      | .ok id => .ask (.identityById id) fun who =>
          .done ⟨.ok (callerOf .serviceToken who), []⟩

/-- The inquiry of a header. -/
def inquire (header : Option String) : Inquiry :=
  match Credential.parse header with
  | .absent => .done ⟨.ok none, []⟩
  | .resetPassword token => inquireReset settings now token
  | .service token => inquireService settings callerIp token
  | .bearer token => inquireBearer settings now token

variable (stores : Collaborators)

/-- To go on with the reply of a store is to ask it. -/
theorem afterLookup_eq_hold (q : Question) {next : q.Reply → Resolution}
    {inquiry : q.Reply → Inquiry} (h : ∀ a, next a = (inquiry a).hold stores) :
    .afterLookup (q.reply stores) next = (Inquiry.ask q inquiry).hold stores := by
  cases hreply : q.reply stores with
  | error e => exact (Inquiry.hold_of_fails hreply).symm
  | ok a =>
      rw [Inquiry.hold_of_reply hreply]
      exact h a

theorem found_eq_hold (trust : Trust) (email : String) :
    .found trust (stores.identityByEmail email) =
      (identifyByEmail trust email).hold stores :=
  afterLookup_eq_hold stores (.identityByEmail email) fun _ => rfl

theorem resolveBearer_eq_hold (token : String) :
    resolveBearer settings stores now token = (inquireBearer settings now token).hold stores := by
  unfold resolveBearer inquireBearer
  cases signedEmail? settings now token with
  | none => rfl
  | some email => exact found_eq_hold stores .login email

theorem resolveReset_eq_hold (token : String) :
    resolveReset settings stores now token = (inquireReset settings now token).hold stores := by
  unfold resolveReset inquireReset
  cases signedEmail? settings now token with
  | none => rfl
  | some email =>
      refine afterLookup_eq_hold stores (.resetToken email) fun live => ?_
      cases live with
      | none => rfl
      | some live => exact found_eq_hold stores .resetToken email

theorem resolveService_eq_hold (token : String) :
    resolveService settings stores callerIp token =
      (inquireService settings callerIp token).hold stores := by
  unfold resolveService inquireService
  by_cases hmem : token ∈ settings.serviceTokens
  · simp only [hmem, not_true, if_false]
    refine afterLookup_eq_hold stores (.serviceTokenUser token) fun user => ?_
    cases user with
    | none => rfl
    | some text =>
        dsimp only
        cases UserId.parse text with
        | error e => rfl
        | ok id => exact afterLookup_eq_hold stores (.identityById id) fun _ => rfl
  · simp only [hmem, not_false_iff, if_true]
    rfl

/-- **To resolve a header is to hold its inquiry.** -/
theorem resolve_eq_hold (header : Option String) :
    resolve settings stores now callerIp header =
      (inquire settings now callerIp header).hold stores := by
  unfold resolve inquire
  cases Credential.parse header with
  | absent => rfl
  | resetPassword token => exact resolveReset_eq_hold settings now stores token
  | service token => exact resolveService_eq_hold settings callerIp stores token
  | bearer token => exact resolveBearer_eq_hold settings now stores token

/-- Every inquiry of a header ends with a judgement of the credential. -/
theorem judges_inquire (header : Option String) :
    (inquire settings now callerIp header).Judges := by
  have hrefused (notices : List Notice) : (Inquiry.done (.refused notices)).Judges := by
    intro e h
    cases h
  have hfound (caller : Option Caller) : (Inquiry.done ⟨.ok caller, []⟩).Judges := by
    intro e h
    cases h
  unfold inquire
  cases Credential.parse header with
  | absent => exact hfound none
  | resetPassword token =>
      dsimp only
      unfold inquireReset
      cases signedEmail? settings now token with
      | none => exact hrefused []
      | some email =>
          intro live
          cases live with
          | none => exact hrefused []
          | some live => exact fun who => hfound _
  | service token =>
      dsimp only
      unfold inquireService
      by_cases hmem : token ∈ settings.serviceTokens
      · simp only [hmem, not_true, if_false]
        intro user
        cases user with
        | none => exact hrefused _
        | some text =>
            dsimp only
            cases UserId.parse text with
            | error e => exact hrefused _
            | ok id => exact fun who => hfound _
      · simp only [hmem, not_false_iff, if_true]
        exact hrefused _
  | bearer token =>
      dsimp only
      unfold inquireBearer
      cases signedEmail? settings now token with
      | none => exact hrefused []
      | some email => exact fun who => hfound _

/-- The token of a header is not looked at any further: it is signed, but not accepted, or it is a
service token that is not configured. -/
inductive Worthless : Option String → Prop
  | login {header token : _} (scheme : Credential.parse header = .bearer token)
      (unsigned : ∀ email, ¬ Names settings now token email) : Worthless header
  | reset {header token : _} (scheme : Credential.parse header = .resetPassword token)
      (unsigned : ∀ email, ¬ Names settings now token email) : Worthless header
  | service {header token : _} (scheme : Credential.parse header = .service token)
      (unknown : token ∉ settings.serviceTokens) : Worthless header

variable {settings now} in
/-- A worthless token is refused before any store is asked. -/
theorem Worthless.refused {header : Option String} (h : Worthless settings now header) :
    ∃ notices, inquire settings now callerIp header = .done (.refused notices) := by
  have hunsigned {token : String} (h : ∀ email, ¬ Names settings now token email) :
      signedEmail? settings now token = none := by
    rw [Option.eq_none_iff_forall_ne_some]
    exact fun email he => h email (signedEmail?_eq_some.mp he)
  unfold inquire
  cases h with
  | login scheme unsigned =>
      rw [scheme]
      exact ⟨[], by simp only [inquireBearer, hunsigned unsigned]⟩
  | reset scheme unsigned =>
      rw [scheme]
      exact ⟨[], by simp only [inquireReset, hunsigned unsigned]⟩
  | service scheme unknown =>
      rw [scheme]
      exact ⟨_, if_pos unknown⟩

end

/--
**An outage is never taken for a judgement.**  Let some stores be out of reach, and fail on
every call, in whatever way.  Then, for any header,

  * the answer is the one that is given without the outage, or the error of a store;
  * it is the one without the outage if none of the stores that are asked there is out of
    reach; so a token that is not accepted and a service token that is not configured, for
    which no store is asked, are refused as invalid whatever fails;
  * it is the error of a store exactly if a store that is asked fails, be it one that is out
    of reach or one that fails without the outage too.  The error is then that store's, so
    it is no refusal, no pass without a caller, and no caller.
-/
theorem resolve_in_outage {o : Outage} {c d : Collaborators} (h : Hampered o c d)
    (settings : Settings) (now : Nat) (callerIp : String) (header : Option String) :
    let sound := resolve settings c now callerIp header
    let answer := resolve settings d now callerIp header
    let asked := (inquire settings now callerIp header).asked
    (answer = sound ∨ ∃ e, answer.outcome = .error (.store e)) ∧
    ((∀ q ∈ asked c, o.covers q.store = false) → answer = sound) ∧
    (Worthless settings now header →
      asked c = [] ∧ answer = sound ∧ answer.outcome = .error .invalidToken) ∧
    ((∃ e, answer.outcome = .error (.store e)) ↔ ∃ q ∈ asked d, q.Fails d) ∧
    ((∃ e, answer.outcome = .error (.store e)) ↔
      ∃ q ∈ asked c, o.covers q.store = true ∨ q.Fails c) ∧
    ((∃ q ∈ asked d, q.Fails d) →
      answer.outcome ≠ .error .invalidToken ∧ ∀ caller, answer.outcome ≠ .ok caller) := by
  intro sound answer asked
  have hsound : sound = (inquire settings now callerIp header).hold c :=
    resolve_eq_hold settings now callerIp c header
  have hanswer : answer = (inquire settings now callerIp header).hold d :=
    resolve_eq_hold settings now callerIp d header
  have hjudges := judges_inquire settings now callerIp header
  have huntouched (hq : ∀ q ∈ asked c, o.covers q.store = false) :
      answer = sound ∧ asked d = asked c := by
    rw [hanswer, hsound]
    exact Inquiry.hold_of_untouched h hq
  have htouched (hq : ∃ q ∈ asked c, o.covers q.store = true) :
      ∃ e, answer.outcome = .error (.store e) := by
    obtain ⟨e, he⟩ := Inquiry.hold_of_touched h hq
    exact ⟨e, by rw [hanswer, he]⟩
  have hcases : (∃ q ∈ asked c, o.covers q.store = true) ∨
      ∀ q ∈ asked c, o.covers q.store = false := by
    by_cases hq : ∃ q ∈ asked c, o.covers q.store = true
    · exact .inl hq
    · refine .inr fun q hmem => ?_
      rw [← Bool.not_eq_true]
      exact fun hcovers => hq ⟨q, hmem, hcovers⟩
  have hfails : (∃ e, answer.outcome = .error (.store e)) ↔ ∃ q ∈ asked d, q.Fails d := by
    rw [hanswer]
    exact Inquiry.hold_error_iff hjudges d
  have hsoundFails : (∃ e, sound.outcome = .error (.store e)) ↔ ∃ q ∈ asked c, q.Fails c := by
    rw [hsound]
    exact Inquiry.hold_error_iff hjudges c
  refine ⟨?_, fun hq => (huntouched hq).1, ?_, hfails, ?_, ?_⟩
  · rcases hcases with hq | hq
    · exact .inr (htouched hq)
    · exact .inl (huntouched hq).1
  · intro hworthless
    obtain ⟨notices, hdone⟩ := hworthless.refused callerIp
    have hnone : asked c = [] :=
      congrArg (Inquiry.asked c) hdone
    refine ⟨hnone, (huntouched (by simp [hnone])).1, ?_⟩
    rw [hanswer, hdone]
    rfl
  · constructor
    · intro herror
      rcases hcases with ⟨q, hmem, hcovers⟩ | hq
      · exact ⟨q, hmem, .inl hcovers⟩
      · rw [(huntouched hq).1] at herror
        obtain ⟨q, hmem, hqfails⟩ := hsoundFails.mp herror
        exact ⟨q, hmem, .inr hqfails⟩
    · rintro ⟨q, hmem, hcovers | hqfails⟩
      · exact htouched ⟨q, hmem, hcovers⟩
      · rcases hcases with hq | hq
        · exact htouched hq
        · rw [(huntouched hq).1]
          exact hsoundFails.mpr ⟨q, hmem, hqfails⟩
  · intro hq
    obtain ⟨e, he⟩ := hfails.mpr hq
    rw [he]
    exact ⟨by simp, by simp⟩

/-- A configured service token: an outage of the reset tokens is not noticed, one of the accounts
is an error of the store, after the bindings were asked. -/
theorem resolve_in_outage_service :
    let who : Identity := ⟨⟨1⟩, "requester@example.com", true, true, .requester⟩
    let c := Contents.ofMemory ⟨0, 0⟩
      ((({} : MemoryStore).upsert who).bind "service:a" who.id.text)
    let settings : Settings := { serviceTokens := ["service:a"] }
    let answer (o : Outage) := resolve settings (c.stores.during o) 0 "" (some "service:a")
    Hampered { resetTokens := true } c.stores (c.stores.during { resetTokens := true }) ∧
      Hampered { identities := true } c.stores (c.stores.during { identities := true }) ∧
      (answer { resetTokens := true }).outcome = .ok (some ⟨who, .serviceToken⟩) ∧
      ∃ e, (answer { identities := true }).outcome = .error (.store e) := by
  intro who c settings answer
  have hresets := hampered_during { resetTokens := true } c.stores
  have haccounts := hampered_during { identities := true } c.stores
  have hasked : (inquire settings 0 "" (some "service:a")).asked c.stores =
      [.serviceTokenUser "service:a", .identityById who.id] := by
    decide +kernel
  have hpasses : PassesService settings c "service:a" who.id :=
    ⟨⟨"a", rfl⟩, List.mem_singleton_self _, who.id.text, by decide +kernel, who.id.parse_text⟩
  have hsound : (resolve settings c.stores 0 "" (some "service:a")).outcome =
      .ok (some ⟨who, .serviceToken⟩) :=
    resolve_of_answer settings c 0 "" (.service hpasses)
  refine ⟨hresets, haccounts, ?_, ?_⟩
  · refine Eq.trans (congrArg Resolution.outcome ?_) hsound
    refine (resolve_in_outage hresets settings 0 "" (some "service:a")).2.1 fun q hq => ?_
    have hq' : q ∈ (inquire settings 0 "" (some "service:a")).asked c.stores := hq
    rw [hasked] at hq'
    simp only [List.mem_cons, List.not_mem_nil, or_false] at hq'
    rcases hq' with rfl | rfl <;> rfl
  · refine (resolve_in_outage haccounts settings 0 "" (some "service:a")).2.2.2.2.1.mpr
      ⟨.identityById who.id, ?_, .inl rfl⟩
    show Question.identityById who.id ∈ (inquire settings 0 "" (some "service:a")).asked c.stores
    rw [hasked]
    simp

end Foreman.Auth
