/-
Runs of the service.

A request is handled at one stroke.  Before its route matters it is only written about, in
counters and in notices, and `handling_handle` says what then becomes of it: it is turned
away with the answer of its kind, or it is routed for the caller that its credential names.

A route does one of two things to the server, if any: it announces a connection, or it
broadcasts an order.  Both are actions of a running server, and so a run of the service is,
up to what is written about it, a run of its server.
-/
import Foreman.Proofs.Server.Run
import Foreman.Http.Service

namespace Foreman.Http

open Server (Hosted)

namespace Service

/-! ### What is written about a request -/

/-- The service with other counters and notices. -/
def writing (tally : Tally) (notices : List Notice) (s : Service) : Service :=
  s.modifyServer fun v => { v with tally := tally, notices := notices }

/-- Nothing has changed but counters and notices, and no work request was counted. -/
def Noted (s s' : Service) : Prop :=
  ∃ tally notices, s' = s.writing tally notices ∧
    tally.get .workRequests = s.server.tally.get .workRequests

theorem Noted.refl (s : Service) : Noted s s := ⟨s.server.tally, s.server.notices, rfl, rfl⟩

theorem Noted.trans {s₁ s₂ s₃ : Service} (h₁ : Noted s₁ s₂) (h₂ : Noted s₂ s₃) :
    Noted s₁ s₃ := by
  obtain ⟨t₁, n₁, rfl, ht₁⟩ := h₁
  obtain ⟨t₂, n₂, rfl, ht₂⟩ := h₂
  exact ⟨t₂, n₂, rfl, ht₂.trans ht₁⟩

theorem noted_note (n : Notice) (s : Service) : Noted s (s.modifyServer (·.note n)) :=
  ⟨s.server.tally, s.server.notices ++ [n], rfl, rfl⟩

theorem noted_bump {m : Metric} (hm : m ≠ .workRequests) (s : Service) :
    Noted s (s.modifyServer (·.bump m)) := by
  exact ⟨s.server.tally.bump m, s.server.notices, rfl, Tally.get_add_of_ne hm 1 _⟩

theorem noted_notes (notices : List Notice) (s : Service) :
    Noted s (s.modifyServer fun v => notices.foldl (fun v n => v.note n) v) := by
  induction notices generalizing s with
  | nil => exact .refl s
  | cons n rest ih => exact (noted_note n s).trans (ih (s.modifyServer (·.note n)))

/-! ### Who a request comes from -/

/-- What the resolver makes of a request's credential. -/
def resolution (r : Request) (peer : Net.SocketAddr) (s : Service) : Auth.Resolution :=
  Auth.resolve s.settings ((s.server.store.collaborators s.server.clock).during s.outage)
    s.server.clock.unixSeconds (callerIp r.headers peer) (r.headers.first? "authorization")

/-- The request's credential, if there is one, reads as text. -/
def Legible (r : Request) : Prop := (r.headers.first? "authorization").all isReadable = true

instance (r : Request) : Decidable (Legible r) := inferInstanceAs (Decidable (_ = true))

/-- The credential is good, and this is the caller it names, if it names one. -/
def Resolves (s : Service) (r : Request) (peer : Net.SocketAddr) (caller : Option Auth.Caller) :
    Prop :=
  Legible r ∧ (s.resolution r peer).outcome = .ok caller

theorem Noted.resolution {s s' : Service} (h : Noted s s') (r : Request) (peer : Net.SocketAddr) :
    s'.resolution r peer = s.resolution r peer := by
  obtain ⟨tally, notices, rfl, -⟩ := h
  rfl

theorem metric?_ne_workRequests {credential : Auth.Credential} {x : Auth.Resolution} {m : Metric}
    (h : x.metric? credential = some m) : m ≠ .workRequests := by
  unfold Auth.Resolution.metric? at h
  split at h
  · cases h
  · split at h <;> cases h <;> simp

/-- What is written about a credential, whatever comes of it. -/
theorem noted_resolved (x : Auth.Resolution) (credential : Auth.Credential) (s : Service) :
    Noted s (s.modifyServer fun v =>
      match x.metric? credential with
      | some m => (x.notices.foldl (fun v n => v.note n) v).bump m
      | none => x.notices.foldl (fun v n => v.note n) v) := by
  cases hm : x.metric? credential with
  | none => exact noted_notes x.notices s
  | some m => exact (noted_notes x.notices s).trans (noted_bump (metric?_ne_workRequests hm) _)

/-- What becomes of a request before it is routed. -/
inductive Identified (r : Request) (peer : Net.SocketAddr) (s : Service) :
    Except Response (Option Auth.Caller) × Service → Prop
  | illegible (h : ¬ Legible r) {s' : Service} (noted : Noted s s') :
      Identified r peer s (.error invalidToken, s')
  | refused (h : Legible r) (outcome : (s.resolution r peer).outcome = .error .invalidToken)
      {s' : Service} (noted : Noted s s') : Identified r peer s (.error invalidToken, s')
  | failed (h : Legible r) {e : StoreError}
      (outcome : (s.resolution r peer).outcome = .error (.store e)) {s' : Service}
      (noted : Noted s s') :
      Identified r peer s (.error (.failure 500 "Internal Server Error"), s')
  | known {caller : Option Auth.Caller} (resolves : s.Resolves r peer caller) {s' : Service}
      (noted : Noted s s') : Identified r peer s (.ok caller, s')

theorem identified_identify (r : Request) (peer : Net.SocketAddr) (s : Service) :
    Identified r peer s (s.identify r peer) := by
  have hillegible : (r.headers.first? "authorization").any (!isReadable ·) = true ↔
      ¬ Legible r := by
    unfold Legible
    cases r.headers.first? "authorization" <;> simp
  unfold identify
  dsimp only
  split
  · rename_i h
    exact .illegible (hillegible.mp h) (.refl s)
  · rename_i h
    have hlegible : Legible r := not_not.mp fun hnot => h (hillegible.mpr hnot)
    have hnoted := noted_resolved (s.resolution r peer)
      (.parse (r.headers.first? "authorization")) s
    split
    · rename_i caller outcome
      exact .known ⟨hlegible, outcome⟩ hnoted
    · rename_i outcome
      exact .refused hlegible outcome hnoted
    · rename_i outcome
      exact .failed hlegible outcome (hnoted.trans (noted_note _ _))

/-! ### Handling a request -/

/-- What becomes of a request. -/
inductive Handling (r : Request) (peer : Net.SocketAddr) (link : Nat) (s : Service) :
    Response × Service → Prop
  | illegible (h : ¬ Legible r) {s' : Service} (noted : Noted s s') :
      Handling r peer link s (invalidToken, s')
  | refused (h : Legible r) (outcome : (s.resolution r peer).outcome = .error .invalidToken)
      {s' : Service} (noted : Noted s s') : Handling r peer link s (invalidToken, s')
  | failed (h : Legible r) {e : StoreError}
      (outcome : (s.resolution r peer).outcome = .error (.store e)) {s' : Service}
      (noted : Noted s s') :
      Handling r peer link s (.failure 500 "Internal Server Error", s')
  | routed {caller : Option Auth.Caller} (resolves : s.Resolves r peer caller) {s' : Service}
      (noted : Noted s s') : Handling r peer link s (s'.route r caller link)

/-- **A request is turned away with the answer of its kind, or it is routed for its caller.** -/
theorem handling_handle (r : Request) (peer : Net.SocketAddr) (link : Nat) (s : Service) :
    Handling r peer link s (s.handle r peer link) := by
  have hcounted : Noted s (s.modifyServer (·.bump .httpRequests)) := noted_bump (by simp) s
  have hsame := hcounted.resolution r peer
  have hidentified := identified_identify r peer (s.modifyServer (·.bump .httpRequests))
  unfold handle
  generalize (s.modifyServer (·.bump .httpRequests)).identify r peer = x at hidentified
  cases hidentified with
  | illegible h noted => exact .illegible h (hcounted.trans noted)
  | refused h outcome noted => exact .refused h (hsame ▸ outcome) (hcounted.trans noted)
  | failed h outcome noted => exact .failed h (hsame ▸ outcome) (hcounted.trans noted)
  | known resolves noted =>
    exact .routed ⟨resolves.1, hsame ▸ resolves.2⟩ (hcounted.trans noted)

/-- What a request does to the server is written about, announced or broadcast. -/
theorem server_handle {P : Server → Prop}
    (written : ∀ v tally notices, P v → P { v with tally := tally, notices := notices })
    (announced : ∀ v key link, P v → P (v.act (.upgrade key link)))
    (broadcast : ∀ v m, P v → P (v.act (.broadcast m)))
    {s : Service} (h : P s.server) (r : Request) (peer : Net.SocketAddr) (link : Nat) :
    P (s.handle r peer link).2.server := by
  have hnoted {s' : Service} (noted : Noted s s') : P s'.server := by
    obtain ⟨tally, notices, rfl, -⟩ := noted
    exact written _ _ _ h
  have hhandling := handling_handle r peer link s
  generalize s.handle r peer link = x at hhandling
  cases hhandling with
  | illegible _ noted => exact hnoted noted
  | refused _ _ noted => exact hnoted noted
  | failed _ _ noted => exact hnoted noted
  | @routed caller _ s' noted =>
    have hrouted : ∀ x, s'.route r caller link = x → P x.2.server := by
      intro x hx
      unfold route at hx
      split at hx
      · unfold upgradeWorker at hx
        split at hx
        · subst hx
          exact written _ _ _ (hnoted noted)
        · split at hx <;> subst hx
          · exact hnoted noted
          · exact announced _ _ _ (hnoted noted)
      · split at hx
        · unfold submitWork at hx
          split at hx
          · subst hx
            exact hnoted noted
          · split at hx <;> subst hx
            · exact hnoted noted
            · exact written _ _ _ (broadcast _ _ (hnoted noted))
        · split at hx <;> subst hx <;> exact hnoted noted
    exact hrouted _ rfl

/-! ### Runs -/

/-- A service to which nothing has happened. -/
def start (hub : HubSettings) (payout : Payout) (queueCapacity : Nat) (store : Store)
    (clock : Clock) (settings : Auth.Settings) (requestId : Nat → String) : Service where
  server := .start hub payout queueCapacity store clock
  settings := settings
  requestId := requestId

/-- Answers a request that comes in over a link of its own. -/
def serve (r : Request) (peer : Net.SocketAddr) (l : Server.Link) (s : Service) :
    Response × Service :=
  (s.modifyServer fun v => (v.addLink l).2).handle r peer (s.server.addLink l).1

/-- Something that happens to a running service. -/
inductive Occurrence where
  /-- A request comes in over a new link. -/
  | request (r : Request) (peer : Net.SocketAddr) (l : Server.Link)
  /-- Something happens to the server behind the service. -/
  | server (a : Server.Action)
  /-- Stores go out of reach, or come back. -/
  | outage (o : Auth.Outage)
  /-- What the stores hold is changed from outside. -/
  | contents (store : Store)

/-- What an occurrence makes of a service. -/
def happen : Occurrence → Service → Service
  | .request r peer l, s => (s.serve r peer l).2
  | .server a, s => s.modifyServer (·.act a)
  | .outage o, s => { s with outage := o }
  | .contents store, s => s.modifyServer fun v => { v with store := store }

/-- The service after some occurrences, the first one first. -/
def after (run : List Occurrence) (s : Service) : Service := run.foldl (fun s o => s.happen o) s

@[simp] theorem after_nil (s : Service) : s.after [] = s := rfl

@[simp] theorem after_cons (o : Occurrence) (run : List Occurrence) (s : Service) :
    s.after (o :: run) = (s.happen o).after run := rfl

theorem after_concat (run : List Occurrence) (o : Occurrence) (s : Service) :
    s.after (run ++ [o]) = (s.after run).happen o := List.foldl_concat ..

theorem hosted_happen (o : Occurrence) {s : Service} (h : Hosted s.server) :
    Hosted (s.happen o).server := by
  cases o with
  | request r peer l =>
    refine server_handle (fun v _ _ hv => hv.between ⟨rfl, rfl⟩)
      (fun v key link hv => Server.hosted_act (.upgrade key link) hv)
      (fun v m hv => Server.hosted_act (.broadcast m) hv) ?_ r peer _
    exact Server.hosted_act (.connect l) h
  | server a => exact Server.hosted_act a h
  | outage o => exact h
  | contents store => exact h.between ⟨rfl, rfl⟩

/-- What holds at first and is kept by every occurrence holds after any of them. -/
theorem after_induction {P : Service → Prop} (keep : ∀ o s, P s → P (s.happen o)) {s : Service}
    (start : P s) (run : List Occurrence) : P (s.after run) := by
  induction run generalizing s with
  | nil => exact start
  | cons o rest ih => exact ih (keep o s start)

/-- **To the hub, a run of the service is a sequence of its operations.** -/
theorem hosted_after (hub : HubSettings) (payout : Payout) (queueCapacity : Nat) (store : Store)
    (clock : Clock) (settings : Auth.Settings) (requestId : Nat → String)
    (run : List Occurrence) :
    Hosted ((start hub payout queueCapacity store clock settings requestId).after run).server :=
  after_induction (P := fun s => Hosted s.server) (fun o _ h => hosted_happen o h)
    ⟨[], .start rfl rfl⟩ run

end Service

end Foreman.Http
