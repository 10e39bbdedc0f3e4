/-
How a server drains after its hub was closed.

Closing the hub tells every connection to stop and lets no new one in.  From then on the
pipeline empties from the front to the back: the read loops stop, some of them with a last
event; with the last of them the work queue is closed; the aggregator records what is left
on it and stops; and after it the notifier, once no reward is left, which by then all go
undelivered.

What holds of the stages behind the queue is `Backstage.Sound`, at any time, and `Drains`
adds what the aggregator has done with the events and when it may stop.  That nothing gets
stuck on the way needs no more than these and that every connection is over a socket: a
read loop that was told to stop waits for nothing, neither for a frame nor for a slot.
-/
import Foreman.Proofs.Server.BackstageStep
import Foreman.Proofs.Server.Senders

namespace Foreman

/-- The store after some events were recorded, the first one first. -/
def Store.recordAll (es : List WorkEvent) (store : Store) : Store :=
  es.foldl (fun store e => (store.recordWork e).2) store

namespace Server

section

variable {a : Action} {s s' : Server}

/-! ### Sockets -/

/-- The action makes no connection but over a socket that there is. -/
def Action.hasSocket (s : Server) : Action → Bool
  | .register _ link => decide (link < s.links.length)
  | .upgrade _ link => decide (link < s.links.length)
  | _ => true

/-- No action in a run makes a connection but over a socket that was opened before. -/
def haveSockets : List Action → Server → Bool
  | [], _ => true
  | a :: rest, s => a.hasSocket s && haveSockets rest (s.act a)

theorem Shift.self {b : Backstage} {xs : List Endpoint} (h : Shift s s' b xs) :
    Shift s s' s'.backstage s'.endpoints := ⟨rfl, rfl, h.upgrades, h.links, h.closed⟩

/-- Every step is a shift, but for a connection that begins to wait. -/
theorem BackstageStep.exists_shift (h : BackstageStep a s s') :
    ∃ upgrades, (∀ u ∈ upgrades, u ∈ s.upgrades ∨ a = .upgrade u.1 u.2) ∧
      Shift { s with upgrades := upgrades } s' s'.backstage s'.endpoints := by
  have hshift {b : Backstage} {xs : List Endpoint} (h : Shift s s' b xs) :
      ∃ upgrades, (∀ u ∈ upgrades, u ∈ s.upgrades ∨ a = .upgrade u.1 u.2) ∧
        Shift { s with upgrades := upgrades } s' s'.backstage s'.endpoints :=
    ⟨s.upgrades, fun _ => .inl, h.self⟩
  cases h with
  | aside _ h => exact hshift h
  | posts _ _ h => exact hshift h.shift
  | waits key link action _ upgrades h =>
      refine ⟨s'.upgrades, fun u hu => ?_, h.self⟩
      rw [upgrades, List.mem_append, List.mem_singleton] at hu
      refine hu.imp_right fun hu => ?_
      rw [action, hu]
  | joins _ _ _ _ _ h => exact hshift h
  | retires _ _ _ h => exact hshift h
  | takes _ _ _ _ _ _ _ _ h => exact hshift h
  | records _ _ _ _ h => exact hshift h
  | finishes _ _ _ _ _ h => exact hshift h
  | delivers _ _ _ _ _ _ _ _ _ _ h => exact hshift h
  | drops _ _ _ _ _ _ h => exact hshift h
  | ends _ _ _ _ _ h => exact hshift h

/-- An endpoint after a step was there before and, if it had stopped, has stopped; or it is new,
and then the hub is open and the socket was named. -/
theorem BackstageStep.endpoint_cases (h : BackstageStep a s s') {y : Endpoint}
    (hy : y ∈ s'.endpoints) :
    (∃ x ∈ s.endpoints, y.link = x.link ∧ (x.stopped = true → y.stopped = true)) ∨
      s.registry.isOpen = true ∧ ∃ key, a = .register key y.link ∨ (key, y.link) ∈ s.upgrades := by
  have hsame {b : Backstage} (h : Shift s s' b s.endpoints) :
      ∃ x ∈ s.endpoints, y.link = x.link ∧ (x.stopped = true → y.stopped = true) := by
    rw [h.endpoints] at hy
    exact ⟨y, hy, rfl, id⟩
  have hmapped {b : Backstage} {f : Endpoint → Endpoint} (h : Shift s s' b (s.endpoints.map f))
      (hf : ∀ x : Endpoint, (f x).link = x.link ∧ (x.stopped = true → (f x).stopped = true)) :
      ∃ x ∈ s.endpoints, y.link = x.link ∧ (x.stopped = true → y.stopped = true) := by
    rw [h.endpoints] at hy
    obtain ⟨x, hx, rfl⟩ := List.mem_map.mp hy
    exact ⟨x, hx, hf x⟩
  cases h with
  | aside _ h => exact .inl (hsame h)
  | posts _ _ h =>
      left
      have hmem := List.mem_map_of_mem (f := Endpoint.unladen) hy
      rw [h.unladen] at hmem
      obtain ⟨x, hx, hxy⟩ := List.mem_map.mp hmem
      have hlink : x.unladen.link = y.unladen.link := congrArg Endpoint.link hxy
      have hstopped : x.unladen.stopped = y.unladen.stopped := congrArg Endpoint.stopped hxy
      exact ⟨x, hx, hlink.symm, fun h => hstopped.symm.trans h⟩
  | waits _ _ _ _ _ h =>
      rw [h.endpoints] at hy
      exact .inl ⟨y, hy, rfl, id⟩
  | joins key link origin _ isOpen h =>
      rw [h.endpoints, List.mem_append, List.mem_singleton] at hy
      rcases hy with hold | rfl
      · exact .inl ⟨y, hold, rfl, id⟩
      · exact .inr ⟨isOpen, key, origin⟩
  | retires c _ _ h =>
      refine .inl (hmapped h fun x => ⟨Endpoint.retired_link _ x, fun hx => ?_⟩)
      unfold Endpoint.retired
      split
      · rfl
      · exact hx
  | takes c _ rest _ _ _ _ _ h =>
      refine .inl (hmapped h fun x => ⟨Endpoint.holding_link _ _ x, fun hx => ?_⟩)
      rw [Endpoint.holding_stopped, hx]
  | records _ _ _ _ h => exact .inl (hsame h)
  | finishes _ _ _ _ _ h => exact .inl (hsame h)
  | delivers _ _ z _ _ _ _ _ _ _ h =>
      refine .inl (hmapped h fun x => ⟨Endpoint.holding_link _ _ x, fun hx => ?_⟩)
      rw [Endpoint.holding_stopped, hx]
  | drops _ _ _ _ _ _ h => exact .inl (hsame h)
  | ends _ _ _ _ _ h => exact .inl (hsame h)

/-- Every connection, whether it is registered or waits to be, is over a socket that there is. -/
structure Plugged (s : Server) : Prop where
  endpoints : ∀ x ∈ s.endpoints, x.link < s.links.length
  upgrades : ∀ u ∈ s.upgrades, u.2 < s.links.length

theorem BackstageStep.plugged (h : BackstageStep a s s') (ok : Plugged s)
    (socket : a.hasSocket s = true) : Plugged s' := by
  obtain ⟨upgrades, hupgrades, hshift⟩ := h.exists_shift
  have hlinks : s.links.length ≤ s'.links.length := hshift.links
  refine ⟨fun y hy => Nat.lt_of_lt_of_le ?_ hlinks, fun u hu => Nat.lt_of_lt_of_le ?_ hlinks⟩
  · rcases h.endpoint_cases hy with ⟨x, hx, hlink, -⟩ | ⟨-, key, rfl | hwaits⟩
    · rw [hlink]
      exact ok.endpoints x hx
    · exact of_decide_eq_true socket
    · exact ok.upgrades _ hwaits
  · rcases hupgrades u (hshift.upgrades hu) with hold | rfl
    · exact ok.upgrades u hold
    · exact of_decide_eq_true socket

/-! ### The end of the work queue -/

theorem isAbandon_of_supervised (supervised : a.isSupervised = true) : a.isAbandon = false := by
  cases a with
  | abandon => cases supervised
  | _ => rfl

theorem workEnded_iff_endpoints (held : SendersHeld s) :
    s.workEnded = true ↔ s.registry.isOpen = false ∧ ∀ x ∈ s.endpoints, x.stopped = true := by
  rw [held.workEnded_iff]
  simp [endpoints, Connection.endpoint]

theorem BackstageStep.closed (h : BackstageStep a s s') (closed : s.registry.isOpen = false) :
    s'.registry.isOpen = false := by
  obtain ⟨upgrades, -, hshift⟩ := h.exists_shift
  exact hshift.closed closed

/-- A queue that is closed stays so. -/
theorem BackstageStep.workEnded (h : BackstageStep a s s') (held : SendersHeld s)
    (held' : SendersHeld s') (ended : s.workEnded = true) : s'.workEnded = true := by
  rw [workEnded_iff_endpoints held] at ended
  rw [workEnded_iff_endpoints held']
  obtain ⟨hclosed, hstopped⟩ := ended
  refine ⟨h.closed hclosed, fun y hy => ?_⟩
  rcases h.endpoint_cases hy with ⟨x, hx, -, hxy⟩ | ⟨hopen, -⟩
  · exact hxy (hstopped x hx)
  · simp [hclosed] at hopen

/-- Nothing more comes onto a queue that is closed. -/
theorem intake_of_workEnded (hosted : Hosted s) (held : SendersHeld s)
    (ended : s.workEnded = true) (a : Action) (l : Ledger) :
    (l.noting a s (s.act a)).put = l.put ∧ (s.act a).queue.items <:+ s.queue.items := by
  have hsame {s' : Server} (h : s'.queue = s.queue) : s'.queue.items <:+ s.queue.items :=
    ⟨[], congrArg WorkQueue.items h⟩
  cases act_cases hosted a with
  | rests h =>
      rw [h, noting_self]
      exact ⟨rfl, List.suffix_rfl⟩
  | still reader _ h => exact ⟨put_noting reader l _ _, hsame h.queue⟩
  | joins _ reader _ _ queue _ _ => exact ⟨put_noting reader l _ _, hsame queue⟩
  | consumes e reader _ _ _ items _ _ =>
      refine ⟨put_noting reader l _ _, ?_⟩
      rw [items]
      exact List.suffix_cons _ _
  | abandons reader _ _ _ items _ _ =>
      refine ⟨put_noting reader l _ _, ?_⟩
      rw [items]
      exact List.nil_suffix
  | reads c reader found _ h =>
      -- every read loop has stopped, and one that has puts nothing on the queue
      have hstopped : c.reader.isRunning = false := by
        rw [(held.workEnded_iff.mp ended).2 c (List.mem_of_find?_eq_some found)]
        rfl
      obtain ⟨_, _, _, _, hstroke, -, -, hidle, -⟩ := h.exists_stroke
      obtain ⟨rfl, rfl, -, -⟩ := hidle hstopped
      rw [hstroke.noting reader found, hstroke.items]
      exact ⟨List.append_nil _, [], List.append_nil _⟩

/-! ### The stages behind the queue -/

/-- The aggregator and the notifier stop one after the other, and no reward goes missing. -/
structure Backstage.Sound (b : Backstage) : Prop where
  /-- Only the aggregator holds a sending end of the queue of rewards, and until it stops. -/
  aggregator : b.aggregator = some .running ∧ b.rewardSenders = [.consumer] ∨
    b.aggregator = some .stopped ∧ b.rewardSenders = []
  notifier : b.notifier = .stopped → b.rewardSenders = [] ∧ b.rewards = []
  balance : b.emitted = b.delivered + b.undelivered + b.rewards.length

namespace Backstage.Sound

variable {b : Backstage}

theorem stopped_iff (ok : b.Sound) : b.aggregator = some .stopped ↔ b.rewardSenders = [] := by
  rcases ok.aggregator with ⟨hrunning, hsenders⟩ | ⟨hstopped, hsenders⟩
  · simp [hrunning, hsenders]
  · simp [hstopped, hsenders]

/-- A running aggregator holds the only sending end. -/
theorem senders_of_running (ok : b.Sound) (running : b.aggregator = some .running) :
    b.rewardSenders = [.consumer] := by
  rcases ok.aggregator with ⟨-, hsenders⟩ | ⟨hstopped, -⟩
  · exact hsenders
  · simp [hstopped] at running

theorem recording (ok : b.Sound) (running : b.aggregator = some .running) (clock : Clock)
    (e : WorkEvent) : (b.recording clock e).Sound := by
  have hsender : b.rewardSenders = [.consumer] := ok.senders_of_running running
  unfold Backstage.recording
  split
  · split
    · refine ⟨ok.aggregator, fun h => ?_, ?_⟩
      · have hended := (ok.notifier h).1
        simp [hsender] at hended
      · rw [ok.balance, List.length_append, List.length_singleton]
        rfl
    · exact ⟨ok.aggregator, ok.notifier, ok.balance⟩
  · exact ⟨ok.aggregator, ok.notifier, ok.balance⟩

end Backstage.Sound

/-- What an action does to the stages behind the queue, whatever it does to the connections. -/
inductive StageStep (a : Action) (s s' : Server) : Prop where
  | rests (queue : a.reader = none → s'.queue.items = s.queue.items)
      (h : s'.backstage = s.backstage)
  | records (e : WorkEvent) (action : a = .step .aggregator)
      (running : s.aggregator = some .running) (items : s.queue.items = e :: s'.queue.items)
      (h : s'.backstage = s.backstage.recording s.clock e)
  | finishes (running : s.aggregator = some .running) (empty : s.queue.items = [])
      (ended : s.workEnded = true) (queue : a.reader = none → s'.queue.items = s.queue.items)
      (h : s'.backstage = { s.backstage with
        aggregator := some .stopped
        rewardSenders := s.rewardSenders.erase .consumer })
  | delivers (r : RewardEvent) (rest : List RewardEvent) (running : s.notifier = .running)
      (rewards : s.rewards = r :: rest) (live : s.registry.live ≠ [])
      (queue : a.reader = none → s'.queue.items = s.queue.items)
      (h : s'.backstage =
        { s.backstage with rewards := rest, delivered := s.backstage.delivered + 1 })
  | drops (r : RewardEvent) (rest : List RewardEvent) (running : s.notifier = .running)
      (rewards : s.rewards = r :: rest)
      (queue : a.reader = none → s'.queue.items = s.queue.items)
      (h : s'.backstage =
        { s.backstage with rewards := rest, undelivered := s.backstage.undelivered + 1 })
  | ends (empty : s.rewards = []) (ended : s.rewardsEnded = true)
      (queue : a.reader = none → s'.queue.items = s.queue.items)
      (h : s'.backstage = { s.backstage with notifier := .stopped })

theorem BackstageStep.stages (h : BackstageStep a s s') : StageStep a s s' := by
  cases h with
  | aside silent h => exact .rests silent.queue h.backstage
  | posts _ silent h => exact .rests silent.queue h.shift.backstage
  | waits _ _ _ silent _ h => exact .rests silent.queue h.backstage
  | joins _ _ _ silent _ h => exact .rests silent.queue h.backstage
  | retires _ _ silent h => exact .rests silent.queue h.backstage
  | takes _ _ _ _ _ _ queue _ h => exact .rests (fun _ => queue) h.backstage
  | records e action running items h => exact .records e action running items h.backstage
  | finishes _ running empty ended silent h =>
      exact .finishes running empty ended silent.queue h.backstage
  | delivers r rest _ _ running rewards _ _ held silent h =>
      refine .delivers r rest running rewards (fun hnone => ?_) silent.queue h.backstage
      simp [Registry.find, hnone] at held
  | drops r rest _ running rewards silent h =>
      exact .drops r rest running rewards silent.queue h.backstage
  | ends _ _ empty ended silent h => exact .ends empty ended silent.queue h.backstage

/-- What recording an event leaves alone, and what it makes of the store. -/
theorem Backstage.recording_fields (clock : Clock) (e : WorkEvent) (b : Backstage) :
    (b.recording clock e).rewardSenders = b.rewardSenders ∧
      (b.recording clock e).delivered = b.delivered ∧
      (b.recording clock e).store = (b.store.recordWork e).2 := by
  unfold Backstage.recording
  split <;> rename_i heq <;> rw [heq]
  · split <;> exact ⟨rfl, rfl, rfl⟩
  · exact ⟨rfl, rfl, rfl⟩

namespace StageStep

/-- A step keeps the stages behind the queue sound. -/
theorem sound (h : StageStep a s s') (ok : s.backstage.Sound) : s'.backstage.Sound := by
  -- a notifier that has a reward to deal with has not stopped
  have hstopped {p : Prop} (running : s.notifier = .running)
      (stopped : s.backstage.notifier = .stopped) : p := by
    have hnotifier : s.notifier = .stopped := stopped
    simp [running] at hnotifier
  have hbalance : s.backstage.emitted = s.backstage.delivered + s.backstage.undelivered +
      s.rewards.length := ok.balance
  cases h with
  | rests _ h =>
      rw [h]
      exact ok
  | records e _ running _ h =>
      rw [h]
      exact ok.recording running s.clock e
  | finishes running _ _ _ h =>
      have hsender : s.rewardSenders = [.consumer] := ok.senders_of_running running
      have hnobody : s.rewardSenders.erase .consumer = [] := by
        rw [hsender]
        rfl
      rw [h]
      exact ⟨.inr ⟨rfl, hnobody⟩, fun hn => ⟨hnobody, (ok.notifier hn).2⟩, ok.balance⟩
  | delivers r rest running rewards _ _ h =>
      rw [rewards, List.length_cons] at hbalance
      rw [h]
      refine ⟨ok.aggregator, hstopped running, ?_⟩
      show s.backstage.emitted = s.backstage.delivered + 1 + s.backstage.undelivered + rest.length
      omega
  | drops r rest running rewards _ h =>
      rw [rewards, List.length_cons] at hbalance
      rw [h]
      refine ⟨ok.aggregator, hstopped running, ?_⟩
      show s.backstage.emitted =
        s.backstage.delivered + (s.backstage.undelivered + 1) + rest.length
      omega
  | ends empty ended _ h =>
      rw [h]
      exact ⟨ok.aggregator, fun _ => ⟨List.isEmpty_iff.mp ended, empty⟩, ok.balance⟩

/-- Only the aggregator changes the store: it records the events that it takes. -/
theorem store (h : StageStep a s s') (l : Ledger) :
    (l.noting a s s').consumed = l.consumed ∧ s'.store = s.store ∨
      ∃ e, (l.noting a s s').consumed = l.consumed ++ [e] ∧
        s'.store = (s.store.recordWork e).2 := by
  cases h with
  | rests queue h => exact .inl ⟨consumed_of_same queue l, congrArg Backstage.store h⟩
  | records e action _ items h =>
      refine .inr ⟨e, consumed_of_taken (by rw [action]; rfl) (by rw [action]; rfl) items l, ?_⟩
      exact (congrArg Backstage.store h).trans (Backstage.recording_fields s.clock e _).2.2
  | finishes _ _ _ queue h => exact .inl ⟨consumed_of_same queue l, congrArg Backstage.store h⟩
  | delivers _ _ _ _ _ queue h =>
      exact .inl ⟨consumed_of_same queue l, congrArg Backstage.store h⟩
  | drops _ _ _ _ queue h => exact .inl ⟨consumed_of_same queue l, congrArg Backstage.store h⟩
  | ends _ _ queue h => exact .inl ⟨consumed_of_same queue l, congrArg Backstage.store h⟩

/-- While no key is live no reward is delivered. -/
theorem delivered (h : StageStep a s s') (live : s.registry.live = []) :
    s'.backstage.delivered = s.backstage.delivered := by
  cases h with
  | rests _ h => rw [h]
  | records e _ _ _ h =>
      rw [h]
      exact (Backstage.recording_fields s.clock e _).2.1
  | finishes _ _ _ _ h => rw [h]
  | delivers _ _ _ _ hlive _ _ => exact absurd live hlive
  | drops _ _ _ _ _ h => rw [h]
  | ends _ _ _ h => rw [h]

/-- The rewards end when the aggregator stops, and it stops with the queue. -/
theorem rewardSenders (h : StageStep a s s') (ended : s'.rewardSenders = []) :
    s.rewardSenders = [] ∨ s.workEnded = true ∧ s.queue.items = [] := by
  have hsenders : s'.backstage.rewardSenders = s.backstage.rewardSenders →
      s.rewardSenders = [] := fun h => h.symm.trans ended
  cases h with
  | rests _ h => exact .inl (hsenders (by rw [h]))
  | records e _ _ _ h =>
      exact .inl (hsenders (by rw [h, (Backstage.recording_fields s.clock e _).1]))
  | finishes _ empty ended _ _ => exact .inr ⟨ended, empty⟩
  | delivers _ _ _ _ _ _ h => exact .inl (hsenders (by rw [h]))
  | drops _ _ _ _ _ h => exact .inl (hsenders (by rw [h]))
  | ends _ _ _ h => exact .inl (hsenders (by rw [h]))

end StageStep

/-! ### Runs -/

/-- The queue and the stages behind it after some actions: what the aggregator has taken it has
recorded in `store`, and it has stopped only with the queue. -/
structure Drains (store : Store) (l : Ledger) (s : Server) : Prop where
  senders : SendersHeld s
  sound : s.backstage.Sound
  recorded : s.store = store.recordAll l.consumed
  ended : s.rewardSenders = [] → s.workEnded = true ∧ s.queue.items = []

theorem Drains.act {store : Store} {l : Ledger} (ok : Drains store l s) (hosted : Hosted s)
    (supervised : a.isSupervised = true) : Drains store (l.noting a s (s.act a)) (s.act a) := by
  have hstep := backstage_act hosted supervised
  have hsenders : SendersHeld (s.act a) := ok.senders.act hosted a
  refine ⟨hsenders, hstep.stages.sound ok.sound, ?_, fun hended => ?_⟩
  · rcases hstep.stages.store l with ⟨hconsumed, hstore⟩ | ⟨e, hconsumed, hstore⟩
    · rw [hconsumed, hstore]
      exact ok.recorded
    · rw [hconsumed, hstore, ok.recorded, Store.recordAll, Store.recordAll, List.foldl_append]
      rfl
  · obtain ⟨hwork, hempty⟩ := (hstep.stages.rewardSenders hended).elim ok.ended id
    have hsuffix := (intake_of_workEnded hosted ok.senders hwork a l).2
    rw [hempty] at hsuffix
    exact ⟨hstep.workEnded ok.senders hsenders hwork, List.suffix_nil.mp hsuffix⟩

theorem Drains.after {store : Store} {l : Ledger} {s : Server} (ok : Drains store l s)
    (hosted : Hosted s) {actions : List Action}
    (supervised : ∀ a ∈ actions, a.isSupervised = true) :
    Drains store (ledger actions s l) (s.after actions) := by
  induction actions generalizing s l with
  | nil => exact ok
  | cons a rest ih =>
      rw [List.forall_mem_cons] at supervised
      exact ih (ok.act hosted supervised.1) (hosted_act a hosted) supervised.2

theorem drains_start (hub : HubSettings) (payout : Payout) (capacity : Nat) (store : Store)
    (clock : Clock) : Drains store {} (start hub payout capacity store clock) where
  senders := sendersHeld_start rfl rfl rfl
  sound := ⟨.inl ⟨rfl, rfl⟩, fun h => (nomatch h), rfl⟩
  recorded := rfl
  ended h := nomatch h

theorem plugged_start (hc : s.connections = []) (hu : s.upgrades = []) : Plugged s where
  endpoints := by simp [Server.endpoints, hc]
  upgrades := by simp [hu]

theorem Shift.plugged {b : Backstage} (h : Shift s s' b s.endpoints) (ok : Plugged s) :
    Plugged s' where
  endpoints x hx := Nat.lt_of_lt_of_le (ok.endpoints x (h.endpoints ▸ hx)) h.links
  upgrades u hu := Nat.lt_of_lt_of_le (ok.upgrades u (h.upgrades hu)) h.links

theorem plugged_act (hosted : Hosted s) (ok : Plugged s) (socket : a.hasSocket s = true) :
    Plugged (s.act a) := by
  by_cases supervised : a.isSupervised = true
  · exact (backstage_act hosted supervised).plugged ok socket
  · -- Whoever stands in for the aggregator, or brings rewards, has no hand in the connections.
    cases a with
    | take =>
      refine getD_of_forall ok fun s' hs => ?_
      obtain ⟨⟨e, t⟩, htake, rfl⟩ := Option.map_eq_some_iff.mp hs
      obtain ⟨p, -, hp⟩ := Option.map_eq_some_iff.mp htake
      obtain ⟨-, rfl⟩ := Prod.mk.inj hp
      exact ((aside_queue _ s).trans (aside_grantSlot _ _)).plugged ok
    | abandon => exact ((aside_queue _ s).trans (aside_wakeAll _ _)).plugged ok
    | reward r =>
      have hqueued : Shift s { s with rewards := s.rewards ++ [r] } _ s.endpoints :=
        .of_fields rfl rfl rfl rfl rfl
      exact (hqueued.before (aside_wake _ _)).plugged ok
    | endRewards =>
      have hended : Shift s (s.dropRewardSender .consumer) _ s.endpoints :=
        .of_fields rfl rfl rfl rfl rfl
      exact (hended.before (aside_wake _ _)).plugged ok
    | _ => exact absurd rfl supervised

theorem Plugged.after {s : Server} (ok : Plugged s) (hosted : Hosted s) {actions : List Action}
    (sockets : haveSockets actions s = true) : Plugged (s.after actions) := by
  induction actions generalizing s with
  | nil => exact ok
  | cons a rest ih =>
      rw [haveSockets, Bool.and_eq_true] at sockets
      exact ih (plugged_act hosted ok sockets.1) (hosted_act a hosted) sockets.2

/-- A queue that is closed stays closed, and nothing more comes onto it. -/
theorem workEnded_after {s : Server} (hosted : Hosted s) (held : SendersHeld s)
    (ended : s.workEnded = true) (l : Ledger) {actions : List Action}
    (supervised : ∀ a ∈ actions, a.isSupervised = true) :
    (s.after actions).workEnded = true ∧ (ledger actions s l).put = l.put := by
  induction actions generalizing s l with
  | nil => exact ⟨ended, rfl⟩
  | cons a rest ih =>
      rw [List.forall_mem_cons] at supervised
      have hstep := backstage_act hosted supervised.1
      have hheld : SendersHeld (s.act a) := held.act hosted a
      obtain ⟨hended, hput⟩ := ih (hosted_act a hosted) hheld (hstep.workEnded held hheld ended)
        (l.noting a s (s.act a)) supervised.2
      exact ⟨hended, hput.trans (intake_of_workEnded hosted held ended a l).1⟩

/-- A closed hub stays closed, and no reward is delivered any more. -/
theorem closed_after {s : Server} (hosted : Hosted s) (closed : s.registry.isOpen = false)
    {actions : List Action} (supervised : ∀ a ∈ actions, a.isSupervised = true) :
    (s.after actions).registry.isOpen = false ∧
      (s.after actions).backstage.delivered = s.backstage.delivered := by
  induction actions generalizing s with
  | nil => exact ⟨closed, rfl⟩
  | cons a rest ih =>
      rw [List.forall_mem_cons] at supervised
      have hstep := backstage_act hosted supervised.1
      obtain ⟨hclosed, hdelivered⟩ := ih (hosted_act a hosted) (hstep.closed closed) supervised.2
      exact ⟨hclosed, hdelivered.trans (hstep.stages.delivered (hosted.tended.closed closed))⟩

/-- The same from the moment of the close on. -/
theorem closed_since {s : Server} (hosted : Hosted s) {rest : List Action}
    (supervised : ∀ a ∈ rest, a.isSupervised = true) :
    (s.after (.close :: rest)).registry.isOpen = false ∧
      (s.after (.close :: rest)).backstage.delivered = s.backstage.delivered := by
  have hclose : (s.act .close).registry.isOpen = false := by
    show s.closeHub.2.registry.isOpen = false
    rw [registry_closeHub]
    rfl
  have hbackstage : (s.act .close).backstage = s.backstage := (aside_closeHub s).backstage
  rw [← hbackstage]
  exact closed_after (hosted_act .close hosted) hclose supervised

/-! ### Something can always be done -/

/-- Once the hub is closed every connection has been told to stop. -/
theorem shutdown_of_closed (hosted : Hosted s) (closed : s.registry.isOpen = false)
    {c : Connection} (hc : c ∈ s.connections) : c.shutdown = true := by
  have hlive : s.registry.live = [] := hosted.tended.closed closed
  have hsignals := hosted.tended.signals c.standing (List.mem_map_of_mem hc)
  rw [Registry.find, hlive] at hsignals
  have hone : c.stopSignals = 1 := hsignals
  rw [Connection.shutdown, hone]
  rfl

/-- A read loop that was told to stop waits for nothing. -/
theorem isSome_readAs {c : Connection} (told : c.shutdown = true) (running : c.reader ≠ .stopped)
    (link : (s.link? c.link).isSome = true) : (s.readAs c).isSome = true := by
  unfold readAs
  cases hr : c.reader with
  | waiting since =>
      obtain ⟨l, hl⟩ := Option.isSome_iff_exists.mp link
      simp [hl, readWaiting, told]
  | offering e => rfl
  | queued e => simp [readQueued, told]
  | granted e => rfl
  | leaving => rfl
  | stopped => exact absurd hr running

/-- The tasks through which a server drains. -/
def Task.drains : Task → Bool
  | .reader _ => true
  | .aggregator => true
  | .notifier => true
  | _ => false

theorem Plugged.isSome_link? (ok : Plugged s) {c : Connection} (hc : c ∈ s.connections) :
    (s.link? c.link).isSome = true := by
  have hlt : c.link < s.links.length := ok.endpoints c.endpoint (List.mem_map_of_mem hc)
  rw [link?, List.getElem?_eq_getElem hlt]
  rfl

/-- As long as the queue is not closed, a read loop can take a step. -/
theorem exists_readStep (hosted : Hosted s) (held : SendersHeld s)
    (closed : s.registry.isOpen = false) (plugged : Plugged s) (going : s.workEnded = false) :
    ∃ g, (s.step (.reader g)).isSome = true := by
  obtain ⟨c, hc, hrunning⟩ : ∃ c ∈ s.connections, c.reader ≠ .stopped := by
    by_contra hnone
    push Not at hnone
    simp [held.workEnded_iff.mpr ⟨closed, hnone⟩] at going
  refine ⟨c.generation, ?_⟩
  rw [Server.step, readStep_eq, connection?_of_mem hosted hc, Option.bind_some]
  exact isSome_readAs (shutdown_of_closed hosted closed hc) hrunning (plugged.isSome_link? hc)

/-- As long as the aggregator runs, it can take a step or a read loop can. -/
theorem exists_step_of_aggregator (hosted : Hosted s) (held : SendersHeld s)
    (closed : s.registry.isOpen = false) (plugged : Plugged s)
    (running : s.aggregator = some .running) :
    ∃ t, Task.drains t = true ∧ (s.step t).isSome = true := by
  by_cases hidle : s.queue.items = [] ∧ s.workEnded = false
  · obtain ⟨g, hg⟩ := exists_readStep hosted held closed plugged hidle.2
    exact ⟨.reader g, rfl, hg⟩
  · refine ⟨.aggregator, rfl, ?_⟩
    simp only [Server.step, aggregateStep, running, if_true]
    split
    · rfl
    · rename_i htake
      have hended : s.workEnded = true := by
        simpa [takeEvent_eq_none htake] using hidle
      rw [hended]
      rfl

/-- As long as the notifier runs after the aggregator has stopped, it can take a step. -/
theorem isSome_notifyStep (running : s.notifier = .running) (ended : s.rewardsEnded = true) :
    (s.step .notifier).isSome = true := by
  simp only [Server.step, notifyStep, running, ended, if_true]
  split <;> rfl

/-- **A server that is draining is not stuck.** -/
theorem exists_step (hosted : Hosted s) (held : SendersHeld s)
    (closed : s.registry.isOpen = false) (plugged : Plugged s) (sound : s.backstage.Sound)
    (undrained : s.isDrained = false) :
    ∃ t, Task.drains t = true ∧ (s.step t).isSome = true := by
  rcases sound.aggregator with ⟨hrunning, -⟩ | ⟨hstopped, hsenders⟩
  · exact exists_step_of_aggregator hosted held closed plugged hrunning
  · have hended : s.rewardsEnded = true := List.isEmpty_iff.mpr hsenders
    have hnotifier : s.notifier = .running := by
      cases hn : s.notifier with
      | running => rfl
      | stopped =>
          have haggregator : s.aggregator = some .stopped := hstopped
          simp [isDrained, hn, haggregator] at undrained
    exact ⟨.notifier, rfl, isSome_notifyStep hnotifier hended⟩

/-- A reward that the notifier takes while no key is live goes undelivered. -/
theorem act_notifier_of_closed (live : s.registry.live = []) (running : s.notifier = .running)
    {r : RewardEvent} {rest : List RewardEvent} (rewards : s.rewards = r :: rest) :
    (s.act (.step .notifier)).rewards = rest ∧
      (s.act (.step .notifier)).tally.get .rewardsUndelivered =
        s.tally.get .rewardsUndelivered + 1 := by
  have hstep : s.act (.step .notifier) = { s with rewards := rest }.bump .rewardsUndelivered := by
    simp only [act, Server.step, notifyStep, running, rewards, if_true, Option.getD_some]
    rw [deliver_of_refused] <;> simp [sendTo, Registry.find, live]
  rw [hstep]
  refine ⟨rfl, ?_⟩
  simp [bump, Tally.bump, Tally.get_add]

end

/--
**A server that is closed drains, and loses nothing on the way.**  Let anything happen to a
supervised server whose hub is closed at some point.  At any time after that

  * no key is live, and none will be;
  * the read loops that have not stopped hold a sending end of the work queue each, and nobody
    else holds one; so the queue is closed if and only if the hub is closed and every read loop
    has stopped, before the close as well as after it, and from then on nothing comes onto it;
  * of the events that ever came onto the queue the store has recorded, once and in order,
    those that are not on it any more; and the aggregator has stopped only if the queue is
    closed and empty, so that this is all of them;
  * the queue of rewards is closed if and only if the aggregator has stopped;
  * every reward that was emitted was delivered, or went undelivered, or waits for the notifier;
    and the notifier has stopped only if the aggregator has and none waits;
  * no reward was delivered since the close, and one that the notifier takes goes undelivered;
  * unless the aggregator and the notifier have stopped, one of them can take a step or a read
    loop can, whatever the workers at the other ends do and whatever the write loops wait for.
-/
theorem closed_server_drains (hub : HubSettings) (payout : Payout) (capacity : Nat)
    (store : Store) (clock : Clock) {before rest : List Action}
    (supervised : ∀ a ∈ before ++ .close :: rest, a.isSupervised = true)
    (sockets :
      haveSockets (before ++ .close :: rest) (start hub payout capacity store clock) = true) :
    let s₀ := start hub payout capacity store clock
    let closing := s₀.after before
    let s := s₀.after (before ++ .close :: rest)
    let l := ledger (before ++ .close :: rest) s₀ {}
    let emitted := s.tally.get .rewardsEmitted
    let delivered := s.tally.get .rewardsDelivered
    let undelivered := s.tally.get .rewardsUndelivered
    (s.registry.live = [] ∧ s.registry.isOpen = false) ∧
    (s.workSenders =
      (s.connections.filter (·.reader ≠ .stopped)).map fun c => Sender.reader c.generation) ∧
    (s.workEnded = true ↔
      s.registry.isOpen = false ∧ ∀ c ∈ s.connections, c.reader = .stopped) ∧
    (closing.workEnded = true ↔
      closing.registry.isOpen = false ∧ ∀ c ∈ closing.connections, c.reader = .stopped) ∧
    (s.workEnded = true → ∀ more : List Action, (∀ a ∈ more, a.isSupervised = true) →
      (s.after more).workEnded = true ∧ (ledger more s l).put = l.put) ∧
    (l.put.map (·.2) = l.consumed ++ s.queue.items ∧ s.store = store.recordAll l.consumed) ∧
    (s.aggregator = some .stopped →
      s.workEnded = true ∧ s.queue.items = [] ∧ l.consumed = l.put.map (·.2)) ∧
    (s.rewardsEnded = true ↔ s.aggregator = some .stopped) ∧
    emitted = delivered + undelivered + s.rewards.length ∧
    (s.notifier = .stopped → s.aggregator = some .stopped ∧ s.rewards = [] ∧
      emitted = delivered + undelivered) ∧
    delivered = closing.tally.get .rewardsDelivered ∧
    (∀ r rs, s.notifier = .running → s.rewards = r :: rs →
      (s.act (.step .notifier)).rewards = rs ∧
      (s.act (.step .notifier)).tally.get .rewardsUndelivered = undelivered + 1) ∧
    (s.isDrained = false → ∃ t, Task.drains t = true ∧ (s.step t).isSome = true) := by
  intro s₀ closing s l emitted delivered undelivered
  have hosted₀ : Hosted s₀ := hosted_after rfl rfl []
  have hosted : Hosted s := hosted_after rfl rfl _
  have hdrains : Drains store l s :=
    (drains_start hub payout capacity store clock).after hosted₀ supervised
  have hplugged : Plugged s := (plugged_start rfl rfl).after hosted₀ sockets
  have haccount : Accounted l s := accounted_after hosted₀ (accounted_start rfl rfl) _
  have hconsumer : s.queue.abandoned = false :=
    abandoned_after hosted₀ fun a ha => isAbandon_of_supervised (supervised a ha)
  have hclosed : s.registry.isOpen = false ∧
      s.backstage.delivered = closing.backstage.delivered := by
    have hsplit : s = closing.after (.close :: rest) := List.foldl_append
    rw [List.forall_mem_append, List.forall_mem_cons] at supervised
    rw [hsplit]
    exact closed_since (hosted_after rfl rfl before) supervised.2.2
  have hput : l.put.map (·.2) = l.consumed ++ s.queue.items := haccount.queue hconsumer
  have hbalance : emitted = delivered + undelivered + s.rewards.length := hdrains.sound.balance
  have hlive : s.registry.live = [] := hosted.tended.closed hclosed.1
  have hheld : SendersHeld closing := (sendersHeld_start rfl rfl rfl).after hosted₀ before
  have hstage : s.aggregator = some .stopped ↔ s.rewardSenders = [] := hdrains.sound.stopped_iff
  refine ⟨⟨hlive, hclosed.1⟩, ?_, hdrains.senders.workEnded_iff, hheld.workEnded_iff, ?_,
    ⟨hput, hdrains.recorded⟩, ?_, List.isEmpty_iff.trans hstage.symm, hbalance, ?_, hclosed.2, ?_,
    exists_step hosted hdrains.senders hclosed.1 hplugged hdrains.sound⟩
  · have hsenders := hdrains.senders
    rw [SendersHeld, Registry.senders, hclosed.1] at hsenders
    exact hsenders
  · exact fun hended more hmore => workEnded_after hosted hdrains.senders hended l hmore
  · intro hstopped
    obtain ⟨hwork, hempty⟩ := hdrains.ended (hstage.mp hstopped)
    refine ⟨hwork, hempty, ?_⟩
    rw [hput, hempty, List.append_nil]
  · intro hstopped
    obtain ⟨hended, hnone⟩ : s.rewardSenders = [] ∧ s.rewards = [] :=
      hdrains.sound.notifier hstopped
    refine ⟨hstage.mpr hended, hnone, ?_⟩
    rw [hbalance, hnone]
    rfl
  · exact fun r rs hrunning hrewards => act_notifier_of_closed hlive hrunning hrewards

/-- A read loop puts its event on the queue although it was told to stop.  The event is recorded,
and the reward for it finds nobody. -/
theorem closed_server_drains_late :
    let key : WorkerKey := ⟨"00000000-0000-0000-0000-000000000001:0"⟩
    let result : WorkResult := ⟨"request", ⟨2⟩, "hash", "work", 1⟩
    let link : Link := {
      room := 1000
      incoming := [.text (WorkerMessage.workResult result).toJson.print] }
    let before : List Action := [.connect link, .register key 0, .step (.reader 1)]
    let rest : List Action := [.readEarly 1, .step (.reader 1), .step (.reader 1),
      .step .aggregator, .step .aggregator, .step .notifier, .step .notifier]
    let s₀ := start {} {} 1 (.memory {}) (.atMs 5)
    let s := s₀.after (before ++ .close :: rest)
    let l := ledger (before ++ .close :: rest) s₀ {}
    (∀ a ∈ before ++ .close :: rest, a.isSupervised = true) ∧
      haveSockets (before ++ .close :: rest) s₀ = true ∧
      s.isDrained = true ∧ l.consumed.length = 1 ∧ l.consumed = l.put.map (·.2) ∧
      s.tally.get .rewardsUndelivered = 1 := by
  intro key result link before rest s₀ s l
  have hsupervised : ∀ a ∈ before ++ .close :: rest, a.isSupervised = true := by decide +kernel
  have hsockets : haveSockets (before ++ .close :: rest) s₀ = true := by decide +kernel
  have hdrained : s.aggregator = some .stopped ∧ s.isDrained = true ∧ l.consumed.length = 1 ∧
      s.tally.get .rewardsUndelivered = 1 := by decide +kernel
  obtain ⟨haggregator, hdone, hlength, hundelivered⟩ := hdrained
  obtain ⟨-, -, -, -, -, -, hstopped, -⟩ :=
    closed_server_drains {} {} 1 (.memory {}) (.atMs 5) hsupervised hsockets
  exact ⟨hsupervised, hsockets, hdone, hlength, (hstopped haggregator).2.2, hundelivered⟩

end Server

end Foreman
