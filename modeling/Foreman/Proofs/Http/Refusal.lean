/-
Requests that are turned away.

A credential is refused for many reasons, which `Refused` lists, and a requester is told none
of them: whatever the reason, the route, the body and the state of the service, the answer is
one and the same, and nothing comes of the request but counters and notices.  Nor can a
requester mistake an outage for a refusal, since a credential that is not judged, because a
store does not reply, has an answer of its own, which no judged request is given.
-/
import Foreman.Proofs.Auth.Outage
import Foreman.Proofs.Http.Run

namespace Foreman.Auth

/-! ### Reasons of a refusal -/

section

variable (settings : Settings) (stores : Collaborators) (now : Nat)

/-- Why the token of a header is refused. -/
inductive Refused : Option String → Prop
  /-- It is not even looked up. -/
  | worthless {header : Option String} (h : Worthless settings now header) : Refused header
  /-- The reset token of the email is used up, or was never issued. -/
  | retired {header : Option String} {token email : String}
      (scheme : Credential.parse header = .resetPassword token)
      (names : Names settings now token email) (gone : stores.resetToken email = .ok none) :
      Refused header
  /-- The service token belongs to nobody. -/
  | unbound {header : Option String} {token : String}
      (scheme : Credential.parse header = .service token)
      (configured : token ∈ settings.serviceTokens)
      (gone : stores.serviceTokenUser token = .ok none) : Refused header
  /-- The service token belongs to something that is no account's id. -/
  | misbound {header : Option String} {token text : String}
      (scheme : Credential.parse header = .service token)
      (configured : token ∈ settings.serviceTokens)
      (bound : stores.serviceTokenUser token = .ok (some text))
      (unread : ∀ id, UserId.parse text ≠ .ok id) : Refused header

variable {settings stores now}

theorem afterLookup_eq_invalid {α : Type} {answer : Except StoreError α} {next : α → Resolution} :
    (Resolution.afterLookup answer next).outcome = .error .invalidToken ↔
      ∃ a, answer = .ok a ∧ (next a).outcome = .error .invalidToken := by
  cases answer <;> simp [Resolution.afterLookup]

theorem found_ne_invalid (trust : Trust) (answer : Except StoreError (Option Identity)) :
    (Resolution.found trust answer).outcome ≠ .error .invalidToken := by
  unfold Resolution.found
  rw [ne_eq, afterLookup_eq_invalid]
  rintro ⟨who, -, h⟩
  cases h

theorem unsigned_iff {token : String} :
    signedEmail? settings now token = none ↔ ∀ email, ¬ Names settings now token email := by
  rw [Option.eq_none_iff_forall_ne_some]
  simp only [ne_eq, signedEmail?_eq_some]

theorem resolveBearer_eq_invalid {token : String} :
    (resolveBearer settings stores now token).outcome = .error .invalidToken ↔
      ∀ email, ¬ Names settings now token email := by
  rw [← unsigned_iff]
  unfold resolveBearer
  cases signedEmail? settings now token with
  | none => simp [Resolution.refused]
  | some email => simp [found_ne_invalid]

theorem resolveReset_eq_invalid {token : String} :
    (resolveReset settings stores now token).outcome = .error .invalidToken ↔
      (∀ email, ¬ Names settings now token email) ∨
        ∃ email, Names settings now token email ∧ stores.resetToken email = .ok none := by
  rw [← unsigned_iff]
  simp only [← signedEmail?_eq_some]
  unfold resolveReset
  cases signedEmail? settings now token with
  | none => simp [Resolution.refused]
  | some email =>
    dsimp only
    rw [afterLookup_eq_invalid]
    constructor
    · rintro ⟨live, hlive, h⟩
      cases live with
      | none => exact .inr ⟨email, rfl, hlive⟩
      | some live => exact absurd h (found_ne_invalid _ _)
    · rintro (h | ⟨email', h, hgone⟩)
      · cases h
      · cases h
        exact ⟨none, hgone, rfl⟩

theorem resolveService_eq_invalid {callerIp token : String} :
    (resolveService settings stores callerIp token).outcome = .error .invalidToken ↔
      token ∉ settings.serviceTokens ∨
        token ∈ settings.serviceTokens ∧ (stores.serviceTokenUser token = .ok none ∨
          ∃ text, stores.serviceTokenUser token = .ok (some text) ∧
            ∀ id, UserId.parse text ≠ .ok id) := by
  unfold resolveService
  by_cases hmem : token ∈ settings.serviceTokens
  · simp only [hmem, not_true, if_false, false_or, true_and]
    rw [afterLookup_eq_invalid]
    constructor
    · rintro ⟨user, huser, h⟩
      cases user with
      | none => exact .inl huser
      | some text =>
        refine .inr ⟨text, huser, fun id hid => ?_⟩
        dsimp only at h
        rw [hid] at h
        exact found_ne_invalid _ _ h
    · rintro (hgone | ⟨text, hbound, hunread⟩)
      · exact ⟨none, hgone, rfl⟩
      · refine ⟨some text, hbound, ?_⟩
        dsimp only
        cases hparse : UserId.parse text with
        | error e => rfl
        | ok id => exact absurd hparse (hunread id)
  · simp [hmem, Resolution.refused]

/-- **A header is refused exactly for these reasons, wherever it comes from.** -/
theorem resolve_eq_invalid {callerIp : String} {header : Option String} :
    (resolve settings stores now callerIp header).outcome = .error .invalidToken ↔
      Refused settings stores now header := by
  unfold resolve
  constructor
  · intro h
    cases hscheme : Credential.parse header with
    | absent =>
      rw [hscheme] at h
      cases h
    | bearer token =>
      rw [hscheme] at h
      exact .worthless (.login hscheme (resolveBearer_eq_invalid.mp h))
    | resetPassword token =>
      rw [hscheme] at h
      rcases resolveReset_eq_invalid.mp h with hunsigned | ⟨email, hnames, hgone⟩
      · exact .worthless (.reset hscheme hunsigned)
      · exact .retired hscheme hnames hgone
    | service token =>
      rw [hscheme] at h
      rcases resolveService_eq_invalid.mp h with
        hunknown | ⟨hconfigured, hgone | ⟨text, hbound, hunread⟩⟩
      · exact .worthless (.service hscheme hunknown)
      · exact .unbound hscheme hconfigured hgone
      · exact .misbound hscheme hconfigured hbound hunread
  · intro h
    cases h with
    | worthless h =>
      cases h with
      | login scheme unsigned =>
        rw [scheme]
        exact resolveBearer_eq_invalid.mpr unsigned
      | reset scheme unsigned =>
        rw [scheme]
        exact resolveReset_eq_invalid.mpr (.inl unsigned)
      | service scheme unknown =>
        rw [scheme]
        exact resolveService_eq_invalid.mpr (.inl unknown)
    | retired scheme names gone =>
      rw [scheme]
      exact resolveReset_eq_invalid.mpr (.inr ⟨_, names, gone⟩)
    | unbound scheme configured gone =>
      rw [scheme]
      exact resolveService_eq_invalid.mpr (.inr ⟨configured, .inl gone⟩)
    | misbound scheme configured bound unread =>
      rw [scheme]
      exact resolveService_eq_invalid.mpr (.inr ⟨configured, .inr ⟨_, bound, unread⟩⟩)

end

end Foreman.Auth

namespace Foreman.Http.Service

/-! ### Requests that are rejected, and requests that are not judged -/

/-- The stores as a credential is checked against them. -/
def stores (s : Service) : Auth.Collaborators :=
  (s.server.store.collaborators s.server.clock).during s.outage

/-- The credential of a request is rejected as invalid. -/
def Rejects (s : Service) (r : Request) : Prop :=
  ¬ Legible r ∨
    Auth.Refused s.settings s.stores s.server.clock.unixSeconds (r.headers.first? "authorization")

/-- A store that is asked about the credential of a request does not reply. -/
def LeavesUnjudged (s : Service) (r : Request) (peer : Net.SocketAddr) : Prop :=
  Legible r ∧ ∃ q ∈ (Auth.inquire s.settings s.server.clock.unixSeconds (callerIp r.headers peer)
    (r.headers.first? "authorization")).asked s.stores, q.Fails s.stores

theorem resolution_eq_invalid {s : Service} {r : Request} {peer : Net.SocketAddr} :
    (s.resolution r peer).outcome = .error .invalidToken ↔
      Auth.Refused s.settings s.stores s.server.clock.unixSeconds
        (r.headers.first? "authorization") :=
  Auth.resolve_eq_invalid

theorem resolution_eq_store {s : Service} {r : Request} {peer : Net.SocketAddr} :
    (∃ e, (s.resolution r peer).outcome = .error (.store e)) ↔
      ∃ q ∈ (Auth.inquire s.settings s.server.clock.unixSeconds (callerIp r.headers peer)
        (r.headers.first? "authorization")).asked s.stores, q.Fails s.stores := by
  have hhold : s.resolution r peer = (Auth.inquire s.settings s.server.clock.unixSeconds
      (callerIp r.headers peer) (r.headers.first? "authorization")).hold s.stores :=
    Auth.resolve_eq_hold ..
  rw [hhold]
  exact Auth.Inquiry.hold_error_iff (Auth.judges_inquire ..) s.stores

/-- The answer to a credential that is not judged. -/
def unjudged : Response := .failure 500 "Internal Server Error"

/-- What a route answers is told apart from what a request is turned away with. -/
theorem route_ne (r : Request) (caller : Option Auth.Caller) (link : Nat) (s : Service) :
    (s.route r caller link).1 ≠ invalidToken ∧ (s.route r caller link).1 ≠ unjudged := by
  have hunauthorized : unauthorized ≠ invalidToken ∧ unauthorized ≠ unjudged := by
    refine ⟨fun h => ?_, fun h => ?_⟩
    · have hbody := congrArg Response.body h
      revert hbody
      decide +kernel
    · exact absurd (congrArg Response.status h) (by decide)
  have hstatus {answer : Response} (n : Nat) (hanswer : answer.status = n)
      (hn : n ≠ 403 ∧ n ≠ 500) : answer ≠ invalidToken ∧ answer ≠ unjudged :=
    ⟨fun h => hn.1 (hanswer ▸ congrArg Response.status h),
      fun h => hn.2 (hanswer ▸ congrArg Response.status h)⟩
  unfold route
  split
  · unfold upgradeWorker
    split
    · exact hunauthorized
    · split
      · exact hstatus 400 rfl (by decide)
      · exact hstatus 101 rfl (by decide)
  · split
    · unfold submitWork
      split
      · exact hunauthorized
      · split
        · exact hstatus 400 rfl (by decide)
        · exact hstatus 202 rfl (by decide)
    · split
      · dsimp only
        unfold me
        split
        · exact hstatus 200 rfl (by decide)
        · exact hunauthorized
      · exact hstatus 404 rfl (by decide)

/-- A request is rejected, or left unjudged, or routed, and not two of these. -/
theorem handle_cases (r : Request) (peer : Net.SocketAddr) (link : Nat) (s : Service) :
    (s.Rejects r ∧ ¬ s.LeavesUnjudged r peer ∧ (s.handle r peer link).1 = invalidToken ∧
        Noted s (s.handle r peer link).2) ∨
      (¬ s.Rejects r ∧ s.LeavesUnjudged r peer ∧ (s.handle r peer link).1 = unjudged ∧
        Noted s (s.handle r peer link).2) ∨
      (¬ s.Rejects r ∧ ¬ s.LeavesUnjudged r peer ∧ (s.handle r peer link).1 ≠ invalidToken ∧
        (s.handle r peer link).1 ≠ unjudged) := by
  have hhandling := handling_handle r peer link s
  generalize s.handle r peer link = x at hhandling
  cases hhandling with
  | illegible h noted => exact .inl ⟨.inl h, fun hun => h hun.1, rfl, noted⟩
  | refused h outcome noted =>
    refine .inl ⟨.inr (resolution_eq_invalid.mp outcome), fun hun => ?_, rfl, noted⟩
    obtain ⟨e, he⟩ := resolution_eq_store.mpr hun.2
    rw [outcome] at he
    cases he
  | failed h outcome noted =>
    refine .inr (.inl ⟨?_, ⟨h, resolution_eq_store.mp ⟨_, outcome⟩⟩, rfl, noted⟩)
    rintro (hnot | hrefused)
    · exact hnot h
    · have hinvalid := (@resolution_eq_invalid s r peer).mpr hrefused
      rw [outcome] at hinvalid
      cases hinvalid
  | @routed caller resolves s' noted =>
    obtain ⟨hlegible, houtcome⟩ := resolves
    refine .inr (.inr ⟨?_, ?_, route_ne r caller link s'⟩)
    · rintro (hnot | hrefused)
      · exact hnot hlegible
      · have hinvalid := (@resolution_eq_invalid s r peer).mpr hrefused
        rw [houtcome] at hinvalid
        cases hinvalid
    · rintro ⟨-, hfails⟩
      obtain ⟨e, he⟩ := resolution_eq_store.mpr hfails
      rw [houtcome] at he
      cases he

/--
**Rejections are all alike.**  Two requests whose credentials are rejected, each of any method,
path, headers and body, each in any state of its service and for whatever reason, are given the
same answer.  And of any request,

  * this answer, which says that the token is invalid, is given exactly if the credential is
    rejected;
  * the answer to a failure, which says nothing else, is given exactly if a store that is
    asked about the credential does not reply, so never along with the first;
  * in both cases only counters and notices are written: no connection is announced,
    numbered or told to stop, no queue and no socket changes, and no order goes out.
-/
theorem rejections_alike :
    (∀ (s s' : Service) (r r' : Request) (peer peer' : Net.SocketAddr) (link link' : Nat),
      s.Rejects r → s'.Rejects r' →
        (s.handle r peer link).1 = (s'.handle r' peer' link').1) ∧
    ∀ (s : Service) (r : Request) (peer : Net.SocketAddr) (link : Nat),
      ((s.handle r peer link).1 = ⟨403, [("content-type", "application/json")],
        "\x7b\"errors\":[\x7b\"message\":\"Invalid Token\"\x7d]\x7d"⟩ ↔ s.Rejects r) ∧
      ((s.handle r peer link).1 = ⟨500, [("content-type", "application/json")],
        "\x7b\"errors\":[\x7b\"message\":\"Internal Server Error\"\x7d]\x7d"⟩ ↔
          s.LeavesUnjudged r peer) ∧
      (s.Rejects r → ¬ s.LeavesUnjudged r peer) ∧
      (s.Rejects r ∨ s.LeavesUnjudged r peer → Noted s (s.handle r peer link).2) := by
  have hinvalid : invalidToken = ⟨403, [("content-type", "application/json")],
      "\x7b\"errors\":[\x7b\"message\":\"Invalid Token\"\x7d]\x7d"⟩ := by decide +kernel
  have hunjudged : unjudged = ⟨500, [("content-type", "application/json")],
      "\x7b\"errors\":[\x7b\"message\":\"Internal Server Error\"\x7d]\x7d"⟩ := by decide +kernel
  have hapart : invalidToken ≠ unjudged := fun h =>
    absurd (congrArg Response.status h) (by decide)
  have hrejected {s : Service} {r : Request} (h : s.Rejects r) (peer : Net.SocketAddr)
      (link : Nat) : (s.handle r peer link).1 = invalidToken := by
    rcases handle_cases r peer link s with ⟨-, -, hanswer, -⟩ | ⟨hnot, -⟩ | ⟨hnot, -⟩
    · exact hanswer
    · exact absurd h hnot
    · exact absurd h hnot
  refine ⟨fun s s' r r' peer peer' link link' h h' => ?_, fun s r peer link => ?_⟩
  · rw [hrejected h peer link, hrejected h' peer' link']
  · rw [← hinvalid, ← hunjudged]
    rcases handle_cases r peer link s with
      ⟨hrejects, hjudged, hanswer, hnoted⟩ | ⟨hnot, hunjudges, hanswer, hnoted⟩ |
      ⟨hnot, hjudged, hinvalid, hunjudged⟩
    · simp [hrejects, hjudged, hanswer, hnoted, hapart]
    · simp [hnot, hunjudges, hanswer, hnoted, hapart.symm]
    · simp [hnot, hjudged, hinvalid, hunjudged]

/-- A login that there is no secret to check by, on the way to the workers, and a header that is
no text, on the way to the work, are answered alike.  A service token whose binding is out of
reach is not judged. -/
theorem rejections_alike_two :
    let peer : Net.SocketAddr := .v4 ⟨127, 0, 0, 1⟩ 80
    let s : Service := start {} {} 1 (.memory {}) ⟨0, 0⟩ {} Nat.repr
    let s' : Service := { start {} {} 1 (.memory {}) ⟨0, 7⟩ { serviceTokens := ["service:a"] }
      Nat.repr with outage := { serviceTokens := true } }
    let r : Request := {
      method := "GET", target := "/ws/worker", headers := [("authorization", "login")] }
    let r' : Request := {
      method := "POST", target := "/v1/work", headers := [("authorization", "é")] }
    let q : Request := { r' with headers := [("authorization", "service:a")] }
    s.Rejects r ∧ s'.Rejects r' ∧ (s.handle r peer 0).1 = (s'.handle r' peer 1).1 ∧
      s'.LeavesUnjudged q peer ∧ Noted s' (s'.handle q peer 2).2 := by
  intro peer s s' r r' q
  have hname : "authorization".toLower = "authorization" := by decide +kernel
  have hheader (value : String) :
      Headers.first? [("authorization", value)] "authorization" = some value := by
    simp [Headers.first?, Headers.all, hname]
  have hlogin : s.Rejects r := by
    have hscheme : Auth.Credential.parse (some "login") = .bearer "login" := by decide +kernel
    rw [← hheader "login"] at hscheme
    refine .inr (.worthless (.login hscheme ?_))
    rintro email ⟨secret, claims, hsecret, -⟩
    cases hsecret
  have hillegible : s'.Rejects r' := by
    refine .inl ?_
    show ¬ (Headers.first? _ _).all isReadable = true
    rw [hheader]
    decide +kernel
  have hunjudged : s'.LeavesUnjudged q peer := by
    refine ⟨?_, .serviceTokenUser "service:a", ?_, .unavailable, rfl⟩
    · show (Headers.first? _ _).all isReadable = true
      rw [hheader]
      decide +kernel
    · show _ ∈ (Auth.inquire _ _ _ (Headers.first? _ _)).asked _
      rw [hheader]
      decide +kernel
  obtain ⟨halike, hanswers⟩ := rejections_alike
  exact ⟨hlogin, hillegible, halike s s' r r' peer peer 0 1 hlogin hillegible, hunjudged,
    (hanswers s' q peer 2).2.2.2 (.inr hunjudged)⟩

end Foreman.Http.Service
