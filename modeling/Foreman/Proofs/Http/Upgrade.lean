/-
Whose connections the workers' connections are.

The service makes up the key of a connection from the caller's account and a number that it
gives out once.  So no two of the keys are the same, and as every connection that is
registered was announced under one of them, a registration finds its key free.  The key
says whose connection it is: the account that it names is that of the caller, and this is
where the results of the connection are counted.
-/
import Mathlib.Data.List.Induction
import Foreman.Proofs.Http.Login
import Foreman.Proofs.Server.Roll
import Foreman.Proofs.Server.Origin
import Foreman.Proofs.Server.Rewards
import Foreman.Proofs.Store.Books
import Foreman.Proofs.WorkerKey

namespace Foreman.Http

open Server (Hosted SameRoll)

namespace Service

/-! ### Requests for a connection -/

/-- A request asks for a worker's connection, and its caller is a provider. -/
structure Welcomes (s : Service) (r : Request) (peer : Net.SocketAddr) (provider : Auth.Caller) :
    Prop where
  method : r.method = "GET"
  path : r.path = workerPath
  handshake : (websocketAccept r.headers).isSome = true
  resolves : s.Resolves r peer (some provider)
  accepted : Auth.authorizedProvider (some provider) = some provider

/-- What a provider's request does: one more connection waits to be registered, under a key of
its own. -/
structure Announced (s : Service) (provider : Auth.Caller) (link : Nat) (s' : Service) : Prop where
  roll : s'.server.outline.roll = s.server.outline.roll
  upgrades : s'.server.upgrades =
    s.server.upgrades ++ [(.forConnection provider.identity.id s.nextConnection, link)]
  nextConnection : s'.nextConnection = s.nextConnection + 1

/-- The connections are those that there were, and no number was given out. -/
structure Unannounced (s s' : Service) : Prop where
  sameRoll : SameRoll s.server s'.server
  nextConnection : s'.nextConnection = s.nextConnection

theorem Noted.unannounced {s s' : Service} (h : Noted s s') : Unannounced s s' := by
  obtain ⟨tally, notices, rfl, -⟩ := h
  exact ⟨⟨rfl, rfl⟩, rfl⟩

theorem Unannounced.trans {s₁ s₂ s₃ : Service} (h₁ : Unannounced s₁ s₂)
    (h₂ : Unannounced s₂ s₃) : Unannounced s₁ s₃ :=
  ⟨h₁.sameRoll.trans h₂.sameRoll, h₂.nextConnection.trans h₁.nextConnection⟩

/-- The gate for providers lets a caller pass as nobody but itself. -/
theorem eq_of_authorizedProvider {who : Option Auth.Caller} {c : Auth.Caller}
    (h : Auth.authorizedProvider who = some c) : who = some c :=
  (Option.filter_eq_some_iff.mp (Option.filter_eq_some_iff.mp h).1).1

/-- A route announces a connection for a provider, or none. -/
theorem route_announces (r : Request) (who : Option Auth.Caller) (link : Nat) (s : Service) :
    Unannounced s (s.route r who link).2 ∨
      ∃ provider, r.method = "GET" ∧ r.path = workerPath ∧
        (websocketAccept r.headers).isSome = true ∧ who = some provider ∧
        Auth.authorizedProvider (some provider) = some provider ∧
        Announced s provider link (s.route r who link).2 := by
  have hnone : Unannounced s s := ⟨.refl _, rfl⟩
  unfold route
  split
  · rename_i hworker
    unfold upgradeWorker
    split
    · exact .inl ⟨⟨rfl, rfl⟩, rfl⟩
    · rename_i c hc
      split
      · exact .inl hnone
      · rename_i accept haccept
        have hwho := eq_of_authorizedProvider hc
        have hwake := Server.outline_wake (.upgrade link) { s.server with
          upgrades := s.server.upgrades ++ [(.forConnection c.identity.id s.nextConnection, link)] }
        have hroll := congrArg Server.Outline.roll hwake
        have hupgrades := congrArg Server.Outline.upgrades hwake
        exact .inr ⟨c, hworker.1, hworker.2, by rw [haccept]; rfl, hwho, hwho ▸ hc,
          hroll, hupgrades, rfl⟩
  · split
    · unfold submitWork
      split
      · exact .inl hnone
      · split
        · exact .inl hnone
        · exact .inl ⟨.of_outline (Server.outline_broadcast _ _), rfl⟩
    · split <;> exact .inl hnone

/-- **A request announces a connection for a provider that asks for one, or none.** -/
theorem handle_announces (r : Request) (peer : Net.SocketAddr) (link : Nat) (s : Service) :
    Unannounced s (s.handle r peer link).2 ∨ ∃ provider,
      Welcomes s r peer provider ∧ Announced s provider link (s.handle r peer link).2 := by
  have hhandling := handling_handle r peer link s
  generalize s.handle r peer link = x at hhandling
  cases hhandling with
  | illegible _ noted => exact .inl noted.unannounced
  | refused _ _ noted => exact .inl noted.unannounced
  | failed _ _ noted => exact .inl noted.unannounced
  | @routed who resolves s' noted =>
    rcases route_announces r who link s' with hnone |
      ⟨provider, hmethod, hpath, hhandshake, rfl, haccepted, hannounced⟩
    · exact .inl (noted.unannounced.trans hnone)
    · obtain ⟨tally, notices, rfl, -⟩ := noted
      exact .inr ⟨provider, ⟨hmethod, hpath, hhandshake, resolves, haccepted⟩,
        hannounced.roll, hannounced.upgrades, hannounced.nextConnection⟩

/-- A provider's request with a login is counted, and the provider's connection waits. -/
theorem LogsIn.happen_eq {s : Service} {r : Request} {token : String} {who : Identity}
    (h : s.LogsIn r token who) (method : r.method = "GET") (path : r.path = workerPath)
    (handshake : (websocketAccept r.headers).isSome = true)
    (accepted : (Auth.Caller.mk who .login).canWork = true) (peer : Net.SocketAddr)
    (l : Server.Link) :
    s.happen (.request r peer l) =
      { s with
        server := (((s.server.addLink l).2.bump .httpRequests).bump (.authResolved .login)).act
          (.upgrade (.forConnection who.id s.nextConnection) s.server.links.length)
        nextConnection := s.nextConnection + 1 } := by
  obtain ⟨accept, haccept⟩ := Option.isSome_iff_exists.mp handshake
  have hprovider : Auth.authorizedProvider (some ⟨who, .login⟩) = some ⟨who, .login⟩ :=
    Option.filter_eq_some_iff.mpr ⟨rfl, accepted⟩
  have hlinked : (s.modifyServer fun v => (v.addLink l).2).LogsIn r token who :=
    ⟨h.sent, h.readable, h.unmarked, h.names, h.sound⟩
  rw [happen, serve, hlinked.handle_eq, route, if_pos ⟨method, path⟩, upgradeWorker, hprovider]
  dsimp only
  rw [haccept]
  rfl

/-! ### Runs in which connections come by requests -/

/-- The occurrence registers a connection, or announces one, without a request. -/
def Occurrence.bypasses : Occurrence → Bool
  | .server (.register _ _) => true
  | .server (.upgrade _ _) => true
  | _ => false

/-- A connection, by its key and its link, was announced for a provider by a request of the run. -/
def UpgradedFor (s₀ : Service) (run : List Occurrence) (p : WorkerKey × Nat)
    (provider : Auth.Caller) : Prop :=
  ∃ before r peer l rest, run = before ++ .request r peer l :: rest ∧
    (s₀.after before).Welcomes r peer provider ∧
    p = (.forConnection provider.identity.id (s₀.after before).nextConnection,
      (s₀.after before).server.links.length)

theorem UpgradedFor.concat {s₀ : Service} {run : List Occurrence} {p : WorkerKey × Nat}
    {provider : Auth.Caller} (h : UpgradedFor s₀ run p provider) (o : Occurrence) :
    UpgradedFor s₀ (run ++ [o]) p provider := by
  obtain ⟨before, r, peer, l, rest, hrun, h⟩ := h
  exact ⟨before, r, peer, l, rest ++ [o], by rw [hrun, List.append_assoc, List.cons_append], h⟩

/-- The connections that are announced in a run, the first one first. -/
def announced : List Occurrence → Service → List (WorkerKey × Nat)
  | [], _ => []
  | o :: rest, s =>
    Server.come s.server.upgrades (s.happen o).server.upgrades ++ announced rest (s.happen o)

theorem announced_concat (run : List Occurrence) (o : Occurrence) (s : Service) :
    announced (run ++ [o]) s = announced run s ++
      Server.come (s.after run).server.upgrades ((s.after run).happen o).server.upgrades := by
  induction run generalizing s with
  | nil => simp [announced]
  | cons o' rest ih => simp [announced, ih]

/-- What is known of the connections that were announced so far. -/
structure Traced (s₀ : Service) (run : List Occurrence) (given : List (WorkerKey × Nat)) :
    Prop where
  /-- Each was announced for a provider. -/
  origin : ∀ p ∈ given, ∃ provider, UpgradedFor s₀ run p provider
  /-- No number is given out twice. -/
  numbered : ∀ p ∈ given, ∃ owner n, p.1 = .forConnection owner n ∧
    n < (s₀.after run).nextConnection
  keys : (given.map (·.1)).Nodup
  /-- There are no others, and none is there twice. -/
  enlisted : (s₀.after run).server.enlisted.Subperm given

namespace Traced

variable {s₀ : Service} {run : List Occurrence} {given : List (WorkerKey × Nat)}

/-- Nothing is announced. -/
theorem rests (ok : Traced s₀ run given) (o : Occurrence)
    (nextConnection : ((s₀.after run).happen o).nextConnection = (s₀.after run).nextConnection)
    (enlisted : ((s₀.after run).happen o).server.enlisted.Subperm
      (s₀.after run).server.enlisted) : Traced s₀ (run ++ [o]) given where
  origin p hp := by
    obtain ⟨provider, h⟩ := ok.origin p hp
    exact ⟨provider, h.concat o⟩
  numbered p hp := by
    rw [after_concat, nextConnection]
    exact ok.numbered p hp
  keys := ok.keys
  enlisted := by
    rw [after_concat]
    exact enlisted.trans ok.enlisted

/-- A provider's request comes in. -/
theorem announces (ok : Traced s₀ run given) {r : Request} {peer : Net.SocketAddr}
    {l : Server.Link} {provider : Auth.Caller} (welcomes : (s₀.after run).Welcomes r peer provider)
    (announced : Announced (s₀.after run) provider (s₀.after run).server.links.length
      ((s₀.after run).happen (.request r peer l))) :
    Traced s₀ (run ++ [.request r peer l]) (given ++
      [(.forConnection provider.identity.id (s₀.after run).nextConnection,
        (s₀.after run).server.links.length)]) where
  origin p hp := by
    rcases List.mem_append.mp hp with hp | hp
    · obtain ⟨provider', h⟩ := ok.origin p hp
      exact ⟨provider', h.concat _⟩
    · exact ⟨provider, run, r, peer, l, [], rfl, welcomes, List.mem_singleton.mp hp⟩
  numbered p hp := by
    rw [after_concat, announced.nextConnection]
    rcases List.mem_append.mp hp with hp | hp
    · obtain ⟨owner, n, hkey, hn⟩ := ok.numbered p hp
      exact ⟨owner, n, hkey, Nat.lt_succ_of_lt hn⟩
    · rw [List.mem_singleton.mp hp]
      exact ⟨_, _, rfl, Nat.lt_succ_self _⟩
  keys := by
    rw [List.map_append, List.map_singleton, ← List.concat_eq_append, List.nodup_concat]
    refine ⟨fun hmem => ?_, ok.keys⟩
    obtain ⟨p, hp, hkey⟩ := List.mem_map.mp hmem
    obtain ⟨owner, n, hn, hlt⟩ := ok.numbered p hp
    -- the number is a new one, and the key tells it
    have hnumber := (WorkerKey.eq_of_forConnection (hn.symm.trans hkey)).2
    omega
  enlisted := by
    rw [after_concat, Server.enlisted, announced.roll, announced.upgrades, ← List.append_assoc]
    exact (List.subperm_append_right _).mpr ok.enlisted

/-- One more occurrence. -/
theorem happen (ok : Traced s₀ run given) (hosted : Hosted (s₀.after run).server)
    {o : Occurrence} (proper : o.bypasses = false) :
    Traced s₀ (run ++ [o]) (given ++
      Server.come (s₀.after run).server.upgrades ((s₀.after run).happen o).server.upgrades) := by
  have hquiet (h : Unannounced (s₀.after run) ((s₀.after run).happen o)) :
      Traced s₀ (run ++ [o]) (given ++ Server.come (s₀.after run).server.upgrades
        ((s₀.after run).happen o).server.upgrades) := by
    rw [h.sameRoll.upgrades, Server.come_self, List.append_nil]
    exact ok.rests o h.nextConnection (by rw [h.sameRoll.enlisted])
  -- whoever waited is registered or given up, and nobody is announced
  have hsettled (rests : ((s₀.after run).happen o).nextConnection = (s₀.after run).nextConnection)
      (h : ((s₀.after run).happen o).server.enlisted.Subperm (s₀.after run).server.enlisted ∧
        ((s₀.after run).happen o).server.upgrades.length ≤
          (s₀.after run).server.upgrades.length) :
      Traced s₀ (run ++ [o]) (given ++ Server.come (s₀.after run).server.upgrades
        ((s₀.after run).happen o).server.upgrades) := by
    have hnone : Server.come (s₀.after run).server.upgrades
        ((s₀.after run).happen o).server.upgrades = [] := List.drop_eq_nil_of_le h.2
    rw [hnone, List.append_nil]
    exact ok.rests o rests h.1
  cases o with
  | request r peer l =>
    rcases handle_announces r peer (s₀.after run).server.links.length
        ((s₀.after run).modifyServer fun v => (v.addLink l).2) with hnone |
      ⟨provider, welcomes, announced⟩
    · exact hquiet ⟨⟨hnone.sameRoll.roll, hnone.sameRoll.upgrades⟩, hnone.nextConnection⟩
    · have hcome : ((s₀.after run).happen (.request r peer l)).server.upgrades =
          (s₀.after run).server.upgrades ++ _ := announced.upgrades
      rw [hcome, Server.come_append]
      exact ok.announces ⟨welcomes.method, welcomes.path, welcomes.handshake, welcomes.resolves,
        welcomes.accepted⟩ ⟨announced.roll, announced.upgrades, announced.nextConnection⟩
  | server a =>
    have hstill (h : a.enrols = false) := hquiet ⟨Server.sameRoll_act hosted h, rfl⟩
    cases a with
    | register key link => cases proper
    | upgrade key link => cases proper
    | failUpgrade link => exact hsettled rfl (Server.enlisted_failUpgrade link _)
    | step t =>
      cases t with
      | upgrade link => exact hsettled rfl (Server.enlisted_upgradeStep link _)
      | _ => exact hstill rfl
    | _ => exact hstill rfl
  | outage o => exact hquiet ⟨⟨rfl, rfl⟩, rfl⟩
  | contents store => exact hquiet ⟨⟨rfl, rfl⟩, rfl⟩

/-- Each connection was announced for a provider, who owns its key. -/
theorem owned (ok : Traced s₀ run given) : ∀ p ∈ given, ∃ provider,
    UpgradedFor s₀ run p provider ∧ p.1.owner? = some provider.identity.id := by
  intro p hp
  obtain ⟨provider, hupgraded⟩ := ok.origin p hp
  refine ⟨provider, hupgraded, ?_⟩
  obtain ⟨before, r, peer, l, rest, -, -, rfl⟩ := hupgraded
  exact WorkerKey.owner?_forConnection _ _

/-- Nobody holds the key of a connection that waits to be registered. -/
theorem free (ok : Traced s₀ run given) (hosted : Hosted (s₀.after run).server) :
    ∀ p ∈ (s₀.after run).server.upgrades, (s₀.after run).server.registry.find p.1 = none := by
  intro p hp
  rw [Option.eq_none_iff_forall_ne_some]
  intro g hg
  -- whoever held the key would be a connection that was announced under the same key
  obtain ⟨x, hx, hkey, -⟩ := hosted.tended.held p.1 g hg
  obtain ⟨c, hc, rfl⟩ := List.mem_map.mp hx
  obtain ⟨l, hperm, hsub⟩ := ok.enlisted
  have hnodup := (hperm.map (·.1)).nodup_iff.mp (ok.keys.sublist (hsub.map (·.1)))
  rw [Server.enlisted_eq, List.map_append, List.nodup_append] at hnodup
  refine hnodup.2.2 c.key ?_ p.1 (List.mem_map_of_mem hp) hkey
  rw [List.map_map]
  exact List.mem_map_of_mem hc

end Traced

theorem traced_after {s₀ : Service} (hosted : Hosted s₀.server) (fresh : s₀.server.enlisted = [])
    {run : List Occurrence} (proper : ∀ o ∈ run, o.bypasses = false) :
    Traced s₀ run (announced run s₀) := by
  induction run using List.reverseRec with
  | nil =>
    refine ⟨fun p hp => absurd hp List.not_mem_nil, fun p hp => absurd hp List.not_mem_nil,
      List.nodup_nil, ?_⟩
    rw [after_nil, fresh]
    exact List.Subperm.refl _
  | append_singleton run o ih =>
    have hosted' : Hosted (s₀.after run).server :=
      after_induction (P := fun s => Hosted s.server) (fun o _ h => hosted_happen o h) hosted run
    rw [announced_concat]
    exact (ih fun o' h => proper o' (List.mem_append_left _ h)).happen hosted'
      (proper o (List.mem_append_right _ (List.mem_singleton_self o)))

/-! ### The ledger of a run -/

/-- The ledger of the server after an occurrence. -/
def noted (o : Occurrence) (s : Service) (l : Server.Ledger) : Server.Ledger :=
  match o with
  | .server a => l.noting a s.server (s.happen o).server
  | _ => l

/-- The ledger of the server after a run, the first occurrence first. -/
def ledger : List Occurrence → Service → Server.Ledger → Server.Ledger
  | [], _, l => l
  | o :: rest, s, l => ledger rest (s.happen o) (noted o s l)

/-- The ledger accounts for every event, and knows the frame that it came from. -/
def Balanced (l : Server.Ledger) (v : Server) : Prop :=
  Server.Accounted l v ∧ ∃ origins, Server.Sourced origins l v

theorem Balanced.of_same {l : Server.Ledger} {v v' : Server} (ok : Balanced l v)
    (h : Server.SameIntake v v') : Balanced l v' := by
  obtain ⟨account, origins, source⟩ := ok
  refine ⟨account.of_same h.hub h.readings h.queue, origins,
    source.of_same h.hub rfl rfl ?_⟩
  rw [h.readings]
  exact fun _ => .inl

theorem balanced_happen {l : Server.Ledger} {s : Service} (hosted : Hosted s.server)
    (ok : Balanced l s.server) (o : Occurrence) :
    Balanced (noted o s l) (s.happen o).server := by
  cases o with
  | request r peer link =>
    refine server_handle (fun v _ _ hv => hv.of_same ⟨rfl, rfl, rfl, rfl⟩) ?_
      (fun v m hv => hv.of_same (Server.quiet_broadcast m v).sameIntake) ?_ r peer _
    · intro v key n hv
      have hwaits : Server.SameIntake v { v with upgrades := v.upgrades ++ [(key, n)] } :=
        ⟨rfl, rfl, rfl, rfl⟩
      exact hv.of_same (hwaits.trans (Server.quiet_wake _ _).sameIntake)
    · exact ok.of_same ⟨rfl, rfl, rfl, rfl⟩
  | server a =>
    obtain ⟨account, origins, source⟩ := ok
    obtain ⟨more, hsource⟩ := Server.sourced_act hosted source a
    exact ⟨Server.accounted_act hosted account a, origins ++ more, hsource⟩
  | outage o => exact ok
  | contents store => exact ok.of_same ⟨rfl, rfl, rfl, rfl⟩

theorem balanced_after {l : Server.Ledger} {s : Service} (hosted : Hosted s.server)
    (ok : Balanced l s.server) (run : List Occurrence) :
    Balanced (ledger run s l) (s.after run).server := by
  induction run generalizing s l with
  | nil => exact ok
  | cons o rest ih => exact ih (hosted_happen o hosted) (balanced_happen hosted ok o)

/-! ### Results -/

/-- Recording the event `e` counts one result more for `p`, if it can be recorded, and none for
anybody else. -/
structure Earns (p : UserId) (e : WorkEvent) (v v' : Server) : Prop where
  others : ∀ q, q ≠ p → v'.store.results q = v.store.results q
  recorded : (∃ tally, (v.store.recordWork e).1 = .ok tally) →
    v'.store.results p = v.store.results p + 1
  once : v'.store.results p ≤ v.store.results p + 1

/-- The aggregator records an event for the owner of its key. -/
theorem earns_of_takeEvent {v t : Server} {e : WorkEvent} {p : UserId}
    (running : v.aggregator = some .running) (htake : v.takeEvent = some (e, t))
    (ho : e.workerKey.owner? = some p) : Earns p e v (v.act (.step .aggregator)) := by
  have hact : v.act (.step .aggregator) = t.processEvent e := by
    rw [Server.act, Server.step, Server.aggregateStep, if_pos running, htake]
    rfl
  have hstore : (v.act (.step .aggregator)).store = (v.store.recordWork e).2 := by
    rw [hact, (Server.processEvent_spec e t).1, (Server.sameBooks_takeEvent htake).store]
  have hbooks := v.store.books_recordWork e
  obtain ⟨n, hn, hresults, hknown⟩ := Store.results_record ho v.store.books
  rw [← hbooks] at hresults hknown
  have hcount (q : UserId) : (v.act (.step .aggregator)).store.results q =
      v.store.results q + if p = q then n else 0 := by
    rw [hstore, Store.results_eq, Store.results_eq]
    exact hresults q
  refine ⟨fun q hq => ?_, ?_, ?_⟩
  · rw [hcount, if_neg (Ne.symm hq), Nat.add_zero]
  · rintro ⟨tally, htally⟩
    rw [hcount, if_pos rfl, hknown (by rw [htally]; rfl)]
  · rw [hcount, if_pos rfl]
    omega

/--
**A worker's connection has a key of its own and earns for the provider who asked for it.**
Consider any run of the service in which connections are registered by requests only.

  * The keys that are given to upgraded connections are pairwise distinct over the whole run,
    however many of them belong to one provider.
  * Each of them was given to a request for `/ws/worker` whose credential resolved to a caller
    that passes the gate for providers, and names this caller as its owner.
  * The connections that are registered, or wait to be, are some of these, in whatever order they
    were registered, and each of them is there once.
  * A connection that waits finds its key free; so whichever of those that wait is registered next,
    every live connection stays live, and none is told to stop.
  * When the aggregator takes an event, that event came in as a text on a connection, and if it is
    recorded, one result more is counted for the provider for whom this connection was upgraded.
    Nothing is counted for any other provider.
-/
theorem upgraded_connections_earn (hub : HubSettings) (payout : Payout) (queueCapacity : Nat)
    (store : Store) (clock : Clock) (settings : Auth.Settings) (requestId : Nat → String)
    (run : List Occurrence) (proper : ∀ o ∈ run, o.bypasses = false) :
    let s₀ := start hub payout queueCapacity store clock settings requestId
    let v := (s₀.after run).server
    ((announced run s₀).map (·.1)).Nodup ∧
    (∀ p ∈ announced run s₀, ∃ provider,
      UpgradedFor s₀ run p provider ∧ p.1.owner? = some provider.identity.id) ∧
    (v.connections.map (fun c => (c.key, c.link)) ++ v.upgrades).Subperm (announced run s₀) ∧
    (∀ p ∈ v.upgrades, v.registry.find p.1 = none) ∧
    (∀ link, v.standings <+: (v.act (.step (.upgrade link))).standings ∧
      ∀ k g, v.registry.find k = some g →
        (v.act (.step (.upgrade link))).registry.find k = some g) ∧
    (∀ e t, v.aggregator = some .running → v.takeEvent = some (e, t) →
      ∃ c ∈ v.connections, ∃ provider,
        UpgradedFor s₀ run (c.key, c.link) provider ∧ e.workerKey = c.key ∧
        (∃ text, (c.generation, .text text) ∈ (ledger run s₀ {}).frames ∧
          WorkerMessage.ofFrame v.hub.maxFrameBytes text = .ok (.workResult e.result)) ∧
        Earns provider.identity.id e v (v.act (.step .aggregator))) := by
  intro s₀ v
  have hosted₀ : Hosted s₀.server := ⟨[], .start rfl rfl⟩
  have hosted : Hosted v := hosted_after hub payout queueCapacity store clock settings requestId run
  have traced : Traced s₀ run (announced run s₀) := traced_after hosted₀ rfl proper
  have henlisted : (v.connections.map (fun c => (c.key, c.link)) ++ v.upgrades).Subperm
      (announced run s₀) := by
    rw [← Server.enlisted_eq]
    exact traced.enlisted
  have hfree : ∀ p ∈ v.upgrades, v.registry.find p.1 = none := traced.free hosted
  refine ⟨traced.keys, traced.owned, henlisted, hfree, Server.upgradeStep_of_free hfree, ?_⟩
  intro e t running htake
  have hqueued : e ∈ v.queue.items := by
    obtain ⟨q, hitems, -⟩ := Server.takeEvent_eq_some htake
    rw [hitems]
    exact List.mem_cons_self
  have hbalanced : Balanced (ledger run s₀ {}) v := balanced_after hosted₀
    ⟨Server.accounted_start rfl rfl, [], Server.sourced_start rfl⟩ run
  obtain ⟨account, origins, source⟩ := hbalanced
  obtain ⟨c, hc, hkey, i, text, hframe, hdecoded⟩ := Server.queued_cameFrom account source hqueued
  have hgiven : (c.key, c.link) ∈ announced run s₀ :=
    henlisted.subset (List.mem_append_left _ (List.mem_map_of_mem hc))
  obtain ⟨provider, hupgraded, ho⟩ := traced.owned _ hgiven
  refine ⟨c, hc, provider, hupgraded, hkey, ⟨text, List.mem_of_getElem? hframe, hdecoded⟩, ?_⟩
  exact earns_of_takeEvent running htake (hkey ▸ ho)

/-- A provider connects twice, and the second connection is registered first.  The keys differ, and
a result from the first one is counted for the provider. -/
theorem upgraded_connections_earn_two :
    let who : Identity := ⟨⟨1⟩, "miner@example.com", true, false, .provider⟩
    let token := Auth.Token.issue "secret" who.email 0 3600
    let r : Request := {
      method := "GET"
      target := "/ws/worker"
      headers := [("authorization", token), ("connection", "upgrade"), ("upgrade", "websocket"),
        ("sec-websocket-version", "13"), ("sec-websocket-key", "dGhlIHNhbXBsZSBub25jZQ==")] }
    let peer : Net.SocketAddr := .v4 ⟨127, 0, 0, 1⟩ 80
    let result : WorkResult := ⟨"request", ⟨2⟩, "hash", "work", 1⟩
    let l : Server.Link := {
      room := 1000
      incoming := [.text (WorkerMessage.workResult result).toJson.print] }
    let run : List Occurrence := [.request r peer l, .request r peer l,
      .server (.step (.upgrade 1)), .server (.step (.upgrade 0)), .server (.step (.reader 2)),
      .server (.step (.reader 2))]
    let s₀ := start {} {} 1 (.memory (({} : MemoryStore).upsert who)) (.atMs 0)
      { secret := some ⟨"secret"⟩ } Nat.repr
    let v := (s₀.after run).server
    (∀ o ∈ run, o.bypasses = false) ∧
      announced run s₀ = [(.forConnection who.id 0, 0), (.forConnection who.id 1, 1)] ∧
      WorkerKey.forConnection who.id 0 ≠ .forConnection who.id 1 ∧
      v.store.results who.id = 0 ∧ (v.act (.step .aggregator)).store.results who.id = 1 := by
  intro who token r peer result l run s₀ v
  have hproper : ∀ o ∈ run, o.bypasses = false := by
    intro o ho
    simp only [run, List.mem_cons, List.not_mem_nil, or_false] at ho
    rcases ho with rfl | rfl | rfl | rfl | rfl | rfl <;> rfl
  have hsent : r.headers.first? "authorization" = some token := by
    have hname : "authorization".toLower = "authorization" := by decide +kernel
    simp [r, Headers.first?, Headers.all, hname]
  have hfound : (s₀.server.store.identityByEmail who.email).1 = .ok (some who) := by
    show Except.ok ([who].find? fun i => normalizeEmail i.email == normalizeEmail who.email) = _
    rw [List.find?_cons_of_pos]
    exact beq_self_eq_true (normalizeEmail who.email)
  have hlogin : s₀.LogsIn r token who := {
    sent := hsent
    readable := Auth.Token.isReadable_ofClaims "secret" _
    unmarked := Auth.unmarked_ofClaims "secret" _
    names := Auth.namesAccount_issue rfl (by decide +kernel) (by decide +kernel) hfound
    sound := rfl }
  have hpath : r.path = workerPath := by decide +kernel
  have hhandshake : (websocketAccept r.headers).isSome = true := by decide +kernel
  -- what the requests make of the service is known without their token
  have hfirst := hlogin.happen_eq rfl hpath hhandshake rfl peer l
  have hagain : (s₀.happen (.request r peer l)).LogsIn r token who := by
    rw [hfirst]
    exact ⟨hlogin.sent, hlogin.readable, hlogin.unmarked, hlogin.names, rfl⟩
  have hsecond := hagain.happen_eq rfl hpath hhandshake rfl peer l
  rw [hfirst] at hsecond
  have hkeys : announced run s₀ = [(.forConnection who.id 0, 0), (.forConnection who.id 1, 1)] := by
    simp only [run, announced, hfirst, hsecond]
    decide +kernel
  let event : WorkEvent := .ofResult (.forConnection who.id 0) result
  have hstate : v.takeEvent.map (·.1) = some event ∧ v.aggregator = some .running ∧
      v.store.results who.id = 0 ∧ (v.store.recordWork event).1 = .ok ⟨1, 1⟩ := by
    simp only [v, run]
    rw [after_cons, hfirst, after_cons, hsecond]
    decide +kernel
  obtain ⟨htake, hrunning, hnone, hrecord⟩ := hstate
  obtain ⟨⟨e, t⟩, htake, hevent⟩ := Option.map_eq_some_iff.mp htake
  obtain rfl : e = event := hevent
  obtain ⟨hnodup, -, -, -, -, hearns⟩ := upgraded_connections_earn {} {} 1
    (.memory (({} : MemoryStore).upsert who)) (.atMs 0) { secret := some ⟨"secret"⟩ } Nat.repr
    run hproper
  obtain ⟨c, -, provider, ⟨before, -, -, -, -, -, -, hgiven⟩, hkey, -, hcount⟩ :=
    hearns event t hrunning htake
  have howner : provider.identity.id = who.id :=
    (WorkerKey.eq_of_forConnection (hkey.trans (congrArg Prod.fst hgiven))).1.symm
  have hcounted : (v.act (.step .aggregator)).store.results provider.identity.id =
      v.store.results provider.identity.id + 1 := hcount.recorded ⟨_, hrecord⟩
  have hdistinct : ((announced run s₀).map (·.1)).Nodup := hnodup
  rw [hkeys] at hdistinct
  refine ⟨hproper, hkeys, ?_, hnone, ?_⟩
  · intro hsame
    exact (List.nodup_cons.mp hdistinct).1 (List.mem_singleton.mpr hsame)
  · rw [← howner, hcounted, howner, hnone]

end Service

end Foreman.Http
