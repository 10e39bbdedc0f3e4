/-
Which requests become orders.

A request has an effect on the queues of the workers only if it is a submission: it is on
the path for work, its caller may submit, and its body says what is to be worked on.  What
that demands of the caller and of the body is `Orders`, with nothing said about the order
in which it is checked; `route_of_orders` and `route_of_not_orders` are the two answers.
-/
import Foreman.Proofs.Http.Run
import Foreman.Proofs.Server.Broadcast

namespace Foreman.Http

open Text

/-! ### Callers and bodies -/

/-- A caller is let through by one of the two gates if by any. -/
theorem entitled_iff {who : Option Auth.Caller} {caller : Auth.Caller} :
    (Auth.authorizedRequester who).or (Auth.authorizedServiceToken who) = some caller ↔
      Auth.authorizedRequester who = some caller ∨
        Auth.authorizedServiceToken who = some caller := by
  have hapart (h : Auth.authorizedServiceToken who = some caller) :
      Auth.authorizedRequester who = none := by
    obtain ⟨hservice, -⟩ := Option.filter_eq_some_iff.mp h
    obtain ⟨hwho, htrust⟩ := Option.filter_eq_some_iff.mp hservice
    rw [beq_iff_eq] at htrust
    simp [hwho, htrust, Auth.authorizedRequester, Auth.withTrust]
  rw [Option.or_eq_some_iff]
  exact or_congr_right ⟨fun h => h.2, fun h => ⟨hapart h, h⟩⟩

/-- What is asked of a body: it is not too long, it reads as a work request, and that asks
for something. -/
structure Asks (body : List UInt8) (w : WorkRequest) : Prop where
  size : body.length ≤ 16384
  reads : (Json.ofUnits? (unitsOfBytes body)).bind WorkRequest.ofJson? = some w
  hash : isBlankText w.hash = false
  difficulty : w.difficultyMultiplier ≠ 0

theorem ofBody?_eq_some {body : List UInt8} {w : WorkRequest} :
    WorkRequest.ofBody? body = some w ↔ Asks body w := by
  have hsize : body.length > maxBodyBytes ↔ ¬ body.length ≤ 16384 := by
    simp [maxBodyBytes]
  constructor
  · intro h
    unfold WorkRequest.ofBody? at h
    split at h
    · cases h
    · rename_i hshort
      obtain ⟨hreads, hsound⟩ := Option.filter_eq_some_iff.mp h
      simp only [WorkRequest.isSound, Bool.and_eq_true, Bool.not_eq_true', bne_iff_ne] at hsound
      exact ⟨not_not.mp (hsize.not.mp hshort), hreads, hsound.1, hsound.2⟩
  · rintro ⟨hshort, hreads, hhash, hdifficulty⟩
    unfold WorkRequest.ofBody?
    rw [if_neg (hsize.not.mpr (not_not.mpr hshort)), Option.filter_eq_some_iff]
    exact ⟨hreads, by simp [WorkRequest.isSound, hhash, hdifficulty]⟩

/-- The request is a submission of work by a caller that may submit it. -/
structure Orders (r : Request) (who : Option Auth.Caller) (caller : Auth.Caller)
    (w : WorkRequest) : Prop where
  method : r.method = "POST"
  path : r.path = workPath
  entitled : Auth.authorizedRequester who = some caller ∨
    Auth.authorizedServiceToken who = some caller
  asks : Asks r.body w

namespace Service

/-- No queue of a connection has changed, and no work request was counted. -/
structure Unasked (s s' : Service) : Prop where
  connections : s'.server.connections = s.server.connections
  workRequests : s'.server.tally.get .workRequests = s.server.tally.get .workRequests

theorem Unasked.trans {s₁ s₂ s₃ : Service} (h₁ : Unasked s₁ s₂) (h₂ : Unasked s₂ s₃) :
    Unasked s₁ s₃ :=
  ⟨h₂.connections.trans h₁.connections, h₂.workRequests.trans h₁.workRequests⟩

theorem Noted.unasked {s s' : Service} (h : Noted s s') : Unasked s s' := by
  obtain ⟨tally, notices, rfl, hcount⟩ := h
  exact ⟨rfl, hcount⟩

/-- The message to the workers that a submission becomes. -/
def orderFrom (s : Service) (caller : Auth.Caller) (w : WorkRequest) : ServerMessage :=
  .workGenerate {
    requestId := s.requestId (s.accepted + 1)
    requesterId := caller.identity.id
    hash := w.hash
    difficultyMultiplier := w.difficultyMultiplier }

/-- The answer to a submission: the id under which it goes out, and to how many workers. -/
def acceptance (s : Service) (workers : Nat) : Response :=
  .json 202 (.record [
    ("request_id", .ofText (s.requestId (s.accepted + 1))), ("workers", .ofNat workers)])

/-- What a submission leaves: it is the answer `x` to it, and each connection that takes the
order has it once. -/
structure Ordered (s : Service) (caller : Auth.Caller) (w : WorkRequest) (x : Response × Service) :
    Prop where
  response : x.1 = s.acceptance (s.server.connections.countP s.server.takes)
  connections : x.2.server.connections = s.server.connections.map fun c =>
    if s.server.takes c then c.given (s.orderFrom caller w) else c
  workRequests : x.2.server.tally.get .workRequests = s.server.tally.get .workRequests + 1

/-! ### Routes -/

section

variable {r : Request} {who : Option Auth.Caller} {link : Nat} {s : Service}

/-- What a submission does: it is broadcast, and counted. -/
theorem route_of_orders (hosted : Server.Hosted s.server) {caller : Auth.Caller} {w : WorkRequest}
    (h : Orders r who caller w) : Ordered s caller w (s.route r who link) := by
  have hspread := Server.spread_broadcast hosted (s.orderFrom caller w)
  have hroute : s.route r who link =
      (s.acceptance (s.server.broadcast (s.orderFrom caller w)).1,
        { s with
          server := (s.server.broadcast (s.orderFrom caller w)).2.bump .workRequests
          accepted := s.accepted + 1 }) := by
    have hmethod : ¬ (r.method = "GET" ∧ r.path = workerPath) := by simp [h.method]
    rw [route, if_neg hmethod, if_pos ⟨h.method, h.path⟩, submitWork, entitled_iff.mpr h.entitled]
    dsimp only
    rw [ofBody?_eq_some.mpr h.asks]
    rfl
  rw [hroute]
  refine ⟨by rw [hspread.accepted], hspread.connections, ?_⟩
  have hcount : (s.server.broadcast (s.orderFrom caller w)).2.tally.get .workRequests =
      s.server.tally.get .workRequests := by
    rw [hspread.tally]
    split
    · rfl
    · exact Tally.get_add_of_ne (by simp) _ _
  dsimp only
  rw [Server.bump, Tally.bump, Tally.get_add, if_pos rfl, hcount]

/-- Whatever else is asked for, the workers hear nothing of it. -/
theorem route_of_not_orders (link : Nat) (s : Service)
    (h : ∀ caller w, ¬ Orders r who caller w) :
    (s.route r who link).1.status ≠ 202 ∧ Unasked s (s.route r who link).2 := by
  have hunasked : Unasked s s := ⟨rfl, rfl⟩
  have h101 : 101 ≠ 202 := by decide
  have h400 : 400 ≠ 202 := by decide
  have h403 : 403 ≠ 202 := by decide
  have h404 : 404 ≠ 202 := by decide
  unfold route
  split
  · unfold upgradeWorker
    split
    · exact ⟨h403, (noted_bump (by simp) s).unasked⟩
    · split
      · exact ⟨h400, hunasked⟩
      · refine ⟨h101, ?_⟩
        exact ⟨Server.connections_wake _ _, congrArg (·.get .workRequests) (Server.tally_wake _ _)⟩
  · split
    · rename_i hwork
      unfold submitWork
      split
      · exact ⟨h403, hunasked⟩
      · rename_i caller hentitled
        split
        · exact ⟨h400, hunasked⟩
        · rename_i w hasks
          exact absurd ⟨hwork.1, hwork.2, entitled_iff.mp hentitled, ofBody?_eq_some.mp hasks⟩
            (h caller w)
    · split
      · refine ⟨?_, hunasked⟩
        unfold me
        split
        · simp [Response.json]
        · exact h403
      · exact ⟨h404, hunasked⟩

end

/-! ### Requests -/

theorem Noted.ordered {s s' : Service} (h : Noted s s') {caller : Auth.Caller} {w : WorkRequest}
    {x : Response × Service} (hx : Ordered s' caller w x) : Ordered s caller w x := by
  obtain ⟨tally, notices, rfl, hcount⟩ := h
  exact ⟨hx.response, hx.connections, hx.workRequests.trans (congrArg (· + 1) hcount)⟩

/-- A credential is good for one caller at most. -/
theorem Resolves.unique {s : Service} {r : Request} {peer : Net.SocketAddr}
    {who who' : Option Auth.Caller} (h : s.Resolves r peer who) (h' : s.Resolves r peer who') :
    who' = who :=
  Except.ok.inj (h'.2.symm.trans h.2)

/-- A request becomes an order, or the workers hear nothing of it. -/
theorem ordered_or_unasked {s : Service} (hosted : Server.Hosted s.server) (r : Request)
    (peer : Net.SocketAddr) (link : Nat) :
    (∃ who caller w, s.Resolves r peer who ∧ Orders r who caller w ∧
        Ordered s caller w (s.handle r peer link)) ∨
      (∀ who, s.Resolves r peer who → ∀ caller w, ¬ Orders r who caller w) ∧
        (s.handle r peer link).1.status ≠ 202 ∧ Unasked s (s.handle r peer link).2 := by
  have hhandling := handling_handle r peer link s
  generalize s.handle r peer link = x at hhandling
  have hturned {y : Response × Service} (hnot : ∀ who, ¬ s.Resolves r peer who)
      (hstatus : y.1.status ≠ 202) (noted : Noted s y.2) :
      (∀ who, s.Resolves r peer who → ∀ caller w, ¬ Orders r who caller w) ∧
        y.1.status ≠ 202 ∧ Unasked s y.2 :=
    ⟨fun who h => absurd h (hnot who), hstatus, noted.unasked⟩
  have h403 : 403 ≠ 202 := by decide
  have h500 : 500 ≠ 202 := by decide
  cases hhandling with
  | illegible h noted => exact .inr (hturned (fun who hwho => h hwho.1) h403 noted)
  | refused h outcome noted =>
    refine .inr (hturned (fun who hwho => ?_) h403 noted)
    rw [hwho.2] at outcome
    cases outcome
  | failed h outcome noted =>
    refine .inr (hturned (fun who hwho => ?_) h500 noted)
    rw [hwho.2] at outcome
    cases outcome
  | @routed who resolves s' noted =>
    have hosted' : Server.Hosted s'.server := by
      obtain ⟨tally, notices, rfl, -⟩ := noted
      exact hosted.between ⟨rfl, rfl⟩
    by_cases horders : ∃ caller w, Orders r who caller w
    · obtain ⟨caller, w, horders⟩ := horders
      exact .inl ⟨who, caller, w, resolves, horders,
        noted.ordered (route_of_orders hosted' horders)⟩
    · have hnot : ∀ caller w, ¬ Orders r who caller w := fun caller w h => horders ⟨caller, w, h⟩
      obtain ⟨hstatus, hunasked⟩ := route_of_not_orders link s' hnot
      refine .inr ⟨fun who' h' => ?_, hstatus, noted.unasked.trans hunasked⟩
      rw [resolves.unique h']
      exact hnot

/--
**A request becomes an order exactly if it is a submission of work.**  After any run of the
service, a request of whatever method and path, with whatever headers and body, is answered
with 202 exactly if

  * it posts to `/v1/work`,
  * its credential resolves to a caller who passes the gate for requesters or the one for
    service tokens, and
  * its body has 16384 bytes at most and reads as a work request, whose hash is not blank and
    whose difficulty is not zero.

If so, one `work_generate` is added to the queue of every live connection that has room for it,
and to no other queue.  It has the id of the answer, the caller's own id, and the hash and the
difficulty of the body; the answer says how many queues it was added to, and one work request is
counted.  If not, no queue of a connection changes and no work request is counted.
-/
theorem work_requests_decided (hub : HubSettings) (payout : Payout) (queueCapacity : Nat)
    (store : Store) (clock : Clock) (settings : Auth.Settings) (requestId : Nat → String)
    (run : List Occurrence) (r : Request) (peer : Net.SocketAddr) (link : Nat) :
    let s := (start hub payout queueCapacity store clock settings requestId).after run
    let x := s.handle r peer link
    (x.1.status = 202 ↔ ∃ who caller w, s.Resolves r peer who ∧ Orders r who caller w) ∧
    (∀ who caller w, s.Resolves r peer who → Orders r who caller w → Ordered s caller w x) ∧
    (x.1.status ≠ 202 → Unasked s x.2) := by
  intro s x
  have hosted := hosted_after hub payout queueCapacity store clock settings requestId run
  rcases ordered_or_unasked hosted r peer link with
    ⟨who, caller, w, resolves, orders, hordered⟩ | ⟨hnot, hstatus, hunasked⟩
  · have hstatus : x.1.status = 202 := by
      rw [hordered.response]
      rfl
    refine ⟨⟨fun _ => ⟨who, caller, w, resolves, orders⟩, fun _ => hstatus⟩, ?_,
      fun h => absurd hstatus h⟩
    intro who' caller' w' resolves' orders'
    rw [resolves.unique resolves'] at orders'
    have hcaller : caller' = caller := by
      have h := entitled_iff.mpr orders'.entitled
      rw [entitled_iff.mpr orders.entitled] at h
      exact (Option.some.inj h).symm
    have hw : w' = w := Option.some.inj (orders'.asks.reads.symm.trans orders.asks.reads)
    rw [hcaller, hw]
    exact hordered
  · refine ⟨⟨fun h => absurd h hstatus, ?_⟩, ?_, fun _ => hunasked⟩
    · rintro ⟨who, caller, w, resolves, orders⟩
      exact absurd orders (hnot who resolves caller w)
    · intro who caller w resolves orders
      exact absurd orders (hnot who resolves caller w)

end Service

end Foreman.Http
