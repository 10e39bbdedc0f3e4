/-
What an action does behind the work queue.

`backstage_act` puts every action of a supervised server into one of a few cases, with
all that it changes behind the work queue: the aggregator records an event or stops, the
notifier delivers a reward, drops it or stops, a write loop takes a reward, and
connections come and go.  Everything else is an aside.

Each case also says whether an event went from the work queue and which rewards a write
loop wrote, so that what is said about a whole run needs no second look at the actions.
-/
import Foreman.Proofs.Server.Rewards
import Foreman.Proofs.Server.Sending

namespace Foreman.Server

/-! ### Supervised servers -/

/-- The action is one that happens to a supervised server: nobody outside has a hand in its work
queue or its rewards. -/
def Action.isSupervised : Action → Bool
  | .take => false
  | .abandon => false
  | .reward _ => false
  | .endRewards => false
  | _ => true

/-- The action is a caller's message that brings a reward. -/
def Action.bringsReward : Action → Bool
  | .sendTo _ m => m.reward?.isSome
  | .broadcast m => m.reward?.isSome
  | _ => false

/-! ### Messages from callers -/

/-- An endpoint without its rewards. -/
def Endpoint.unladen (x : Endpoint) : Endpoint := { x with rewards := [] }

/-- Nothing behind the work queue has changed but the rewards of endpoints. -/
structure Posted (s s' : Server) : Prop where
  shift : Shift s s' s.backstage s'.endpoints
  unladen : s'.endpoints.map Endpoint.unladen = s.endpoints.map Endpoint.unladen

theorem Posted.of_aside {s s' : Server} (h : Aside s s') : Posted s s' := by
  refine ⟨?_, by rw [h.endpoints]⟩
  rw [h.endpoints]
  exact h

theorem Posted.trans {s₁ s₂ s₃ : Server} (h₁ : Posted s₁ s₂) (h₂ : Posted s₂ s₃) :
    Posted s₁ s₃ where
  shift := {
    backstage := h₂.shift.backstage.trans h₁.shift.backstage
    endpoints := rfl
    upgrades := List.Subset.trans h₂.shift.upgrades h₁.shift.upgrades
    links := Nat.le_trans h₁.shift.links h₂.shift.links
    closed := fun h => h₂.shift.closed (h₁.shift.closed h) }
  unladen := h₂.unladen.trans h₁.unladen

theorem posted_offer (g : Nat) (m : ServerMessage) (s : Server) : Posted s (s.offer g m).2 := by
  unfold offer
  split
  · exact .of_aside (.refl s)
  · split
    · have hpost :
          Posted s (s.modifyConnection g fun c => { c with outbox := c.outbox ++ [m] }) := by
        refine ⟨.of_fields rfl rfl rfl rfl rfl, ?_⟩
        simp only [endpoints, List.map_map]
        refine map_modifyConnection _ ?_ g s
        exact fun _ => rfl
      exact hpost.trans (.of_aside (aside_wake _ _))
    · exact .of_aside (.refl s)

theorem posted_sendTo (key : WorkerKey) (m : ServerMessage) (s : Server) :
    Posted s (s.sendTo key m).2 := by
  unfold sendTo
  split
  · exact .of_aside (.refl s)
  · rename_i g _
    have h := posted_offer g m s
    split <;> rename_i s' heq <;> rw [heq] at h
    · exact h
    · exact h.trans (.of_aside (aside_bump rfl s'))
    · exact h

theorem posted_offerAll (m : ServerMessage) (gs : List Nat) (b : Broadcast) (s : Server) :
    Posted s (offerAll m gs b s).2 := by
  induction gs generalizing b s with
  | nil => exact .of_aside (.refl s)
  | cons g rest ih => exact (posted_offer g m s).trans (ih _ _)

theorem posted_broadcast (m : ServerMessage) (s : Server) : Posted s (s.broadcast m).2 := by
  have h := posted_offerAll m (s.registry.live.map (·.2)) {} s
  unfold broadcast
  dsimp only
  split
  · exact h
  · exact h.trans (.of_aside (aside_add rfl _ _))

/-! ### Beginning and end of a connection -/

theorem shift_start {s t : Server} (h : Aside s t) (key : WorkerKey) (g link : Nat) :
    Shift s { t with
        connections := t.connections ++ [Connection.start t key g link]
        workSenders := t.workSenders ++ [.reader g] } s.backstage
      (s.endpoints ++ [⟨key, g, link, [], false⟩]) := by
  refine Shift.trans h (.of_fields h.backstage ?_ rfl rfl rfl)
  rw [← h.endpoints]
  simp [endpoints, Connection.endpoint, Connection.start]

theorem shift_register {s : Server} (hopen : s.registry.isOpen = true) (key : WorkerKey)
    (link : Nat) :
    Shift s (s.register key link).2 s.backstage
      (s.endpoints ++ [⟨key, s.registry.lastGeneration + 1, link, [], false⟩]) := by
  simp only [register, Registry.register, hopen, if_true]
  have hregistry (r : Registry) : Aside s { s with registry := r } :=
    aside_registry fun h => by simp [hopen] at h
  have hready (r : Registry) :=
    ((hregistry r).trans (aside_replace key (s.registry.find key) _)).trans (aside_showConnected _)
  exact ((shift_start (hready _) key _ link).before (aside_wakeAll _ _)).before (aside_bump rfl _)

/-- A read loop that stops lets go of its connection and is seen no more. -/
theorem shift_readLeaving (c : Connection) (s : Server) :
    Shift s (s.readLeaving c) s.backstage
      (s.endpoints.map (Endpoint.retired c.generation)) := by
  have hrelease := aside_release c.key c.generation s
  have hstop (t : Server) : Shift t (t.setReader c.generation .stopped) t.backstage
      (t.endpoints.map (Endpoint.retired c.generation)) := by
    refine .of_fields rfl ?_ rfl rfl rfl
    simp only [endpoints, setReader, modifyConnection, List.map_map]
    refine List.map_congr_left fun d _ => ?_
    by_cases hg : d.generation = c.generation <;>
      simp [Connection.endpoint, Endpoint.retired, hg]
  have hstopped := Shift.trans hrelease (hstop _)
  rw [hrelease.backstage, hrelease.endpoints] at hstopped
  exact ((hstopped.before (aside_dropWorkSender _ _)).before (aside_afterStop c _)).before
    (aside_wake .aggregator _)

/-! ### The aggregator -/

/-- What recording an event makes of what is behind the work queue. -/
def Backstage.recording (clock : Clock) (e : WorkEvent) (b : Backstage) : Backstage :=
  match b.store.recordWork e with
  | (.ok tally, store) =>
    if b.payout.pays tally then
      { b with
        store := store
        rewards := b.rewards ++ [Payout.reward clock e tally]
        emitted := b.emitted + 1 }
    else { b with store := store }
  | (.error _, store) => { b with store := store }

theorem shift_rewardEvent (e : WorkEvent) (tally : WorkTally) (s : Server) :
    Shift s (s.rewardEvent e tally)
      (if s.payout.pays tally then
        { s.backstage with
          rewards := s.rewards ++ [Payout.reward s.clock e tally]
          emitted := s.backstage.emitted + 1 }
      else s.backstage) s.endpoints := by
  unfold rewardEvent
  split
  · have hqueued : Shift s
        ({ s with rewards := s.rewards ++ [Payout.reward s.clock e tally] }.bump .rewardsEmitted)
        { s.backstage with
          rewards := s.rewards ++ [Payout.reward s.clock e tally]
          emitted := s.backstage.emitted + 1 } s.endpoints := by
      refine .of_fields ?_ rfl rfl rfl rfl
      simp [backstage, bump, Tally.bump, Tally.get_add]
    exact hqueued.before (aside_wake _ _)
  · exact Aside.refl s

theorem shift_processEvent (e : WorkEvent) (s : Server) :
    Shift s (s.processEvent e) (s.backstage.recording s.clock e) s.endpoints := by
  have hcount : Aside s (s.bump .workEvents) := aside_bump rfl s
  unfold processEvent recordEvent Backstage.recording
  have hstore : (s.bump .workEvents).store = s.store := rfl
  have hbackstage : s.backstage.store = s.store := rfl
  rw [hstore, hbackstage]
  rcases s.store.recordWork e with ⟨answer, store⟩
  have hrecord : Shift s { s.bump .workEvents with store := store }
      { s.backstage with store := store } s.endpoints := by
    refine Shift.trans hcount (.of_fields ?_ hcount.endpoints rfl rfl rfl)
    rw [← hcount.backstage]
    rfl
  cases answer with
  | ok tally =>
      have hreward := shift_rewardEvent e tally { s.bump .workEvents with store := store }
      dsimp only at hreward ⊢
      rw [hrecord.backstage, hrecord.endpoints] at hreward
      exact hrecord.trans hreward
  | error err =>
      refine hrecord.before ?_
      exact (aside_bump rfl _).trans (aside_note _ _)

/-! ### The notifier -/

/-- An endpoint with the number of a connection is the endpoint of the connection. -/
theorem endpoint_of_generation {s : Server} (hosted : Hosted s) {c : Connection}
    (found : s.connection? c.generation = some c) {x : Endpoint} (hx : x ∈ s.endpoints)
    (hg : x.generation = c.generation) : x = c.endpoint := by
  obtain ⟨d, hd, rfl⟩ := List.mem_map.mp hx
  rw [List.inj_on_of_nodup_map hosted.nodup_generations hd (List.mem_of_find?_eq_some found) hg]

theorem endpoint_mem {s : Server} {g : Nat} {c : Connection} (found : s.connection? g = some c) :
    c.endpoint ∈ s.endpoints := List.mem_map_of_mem (List.mem_of_find?_eq_some found)

/-- A message is accepted for the connection that holds the key, or by nobody. -/
theorem shift_sendTo {s : Server} (hosted : Hosted s) (key : WorkerKey) (m : ServerMessage) :
    ((s.sendTo key m).1 = true ∧ ∃ x ∈ s.endpoints, x.key = key ∧
      s.registry.find key = some x.generation ∧
      Shift s (s.sendTo key m).2 s.backstage
        (s.endpoints.map (Endpoint.holding x.generation (x.rewards ++ m.reward?.toList)))) ∨
    (s.sendTo key m).1 = false ∧ Aside s (s.sendTo key m).2 := by
  cases hfind : s.registry.find key with
  | none =>
      right
      simp only [sendTo, hfind]
      exact ⟨trivial, Aside.refl s⟩
  | some g =>
      cases hc : s.connection? g with
      | none =>
          right
          simp only [sendTo, hfind, offer, hc]
          exact ⟨trivial, Aside.refl s⟩
      | some c =>
          obtain rfl := generation_of_connection? hc
          cases ho : c.offer s.hub with
          | accepted =>
              left
              simp only [sendTo, hfind, offer, hc, ho]
              refine ⟨trivial, c.endpoint, endpoint_mem hc, ?_, rfl, ?_⟩
              · have hstanding : c.standing ∈ s.standings :=
                  List.mem_map_of_mem (List.mem_of_find?_eq_some hc)
                exact hosted.tended.key_of_find hstanding hfind
              · have hpost : Shift s
                    (s.modifyConnection c.generation fun c => { c with outbox := c.outbox ++ [m] })
                    s.backstage (s.endpoints.map (Endpoint.holding c.endpoint.generation
                      (c.endpoint.rewards ++ m.reward?.toList))) := by
                  refine .of_fields rfl ?_ rfl rfl rfl
                  simp only [endpoints, modifyConnection, List.map_map]
                  refine List.map_congr_left fun d hd => ?_
                  by_cases hg : d.generation = c.generation
                  · have hdc : d.endpoint = c.endpoint :=
                      endpoint_of_generation hosted hc (List.mem_map_of_mem hd) hg
                    have hrewards : d.outbox.filterMap ServerMessage.reward? =
                        c.outbox.filterMap ServerMessage.reward? :=
                      congrArg Endpoint.rewards hdc
                    cases hr : m.reward? <;>
                      simp [Connection.endpoint, Endpoint.holding, hg, hr, hrewards]
                  · simp [Connection.endpoint, Endpoint.holding, hg]
                exact hpost.before (aside_wake _ _)
          | full =>
              right
              simp only [sendTo, hfind, offer, hc, ho]
              exact ⟨trivial, aside_bump rfl s⟩
          | closed =>
              right
              simp only [sendTo, hfind, offer, hc, ho]
              exact ⟨trivial, Aside.refl s⟩

/-! ### What an action does behind the work queue -/

/-- No event went from the work queue, and no reward was written. -/
structure Silent (a : Action) (s s' : Server) : Prop where
  queue : a.reader = none → s'.queue.items = s.queue.items
  wrote : rewardsIn s.hub.maxFrameBytes (framesWritten a s s') = []

/-- What an action does behind the work queue. -/
inductive BackstageStep (a : Action) (s s' : Server) : Prop where
  /-- It does nothing there. -/
  | aside (silent : Silent a s s') (h : Aside s s')
  /-- A caller sends a reward, whatever for. -/
  | posts (brings : a.bringsReward = true) (silent : Silent a s s') (h : Posted s s')
  /-- A connection is upgraded and waits to be registered. -/
  | waits (key : WorkerKey) (link : Nat) (action : a = .upgrade key link) (silent : Silent a s s')
      (upgrades : s'.upgrades = s.upgrades ++ [(key, link)])
      (h : Aside { s with upgrades := s'.upgrades } s')
  /-- A connection begins. -/
  | joins (key : WorkerKey) (link : Nat)
      (origin : a = .register key link ∨ (key, link) ∈ s.upgrades) (silent : Silent a s s')
      (isOpen : s.registry.isOpen = true)
      (h : Shift s s' s.backstage
        (s.endpoints ++ [⟨key, s.registry.lastGeneration + 1, link, [], false⟩]))
  /-- A read loop stops. -/
  | retires (c : Connection) (found : s.connection? c.generation = some c)
      (silent : Silent a s s')
      (h : Shift s s' s.backstage (s.endpoints.map (Endpoint.retired c.generation)))
  /-- A write loop takes a reward, and writes it or not. -/
  | takes (c : Connection) (r : Reward) (rest : List Reward)
      (writer : a.writer = some c.generation) (found : s.connection? c.generation = some c)
      (held : c.endpoint.rewards = r :: rest) (queue : s'.queue.items = s.queue.items)
      (wrote : rewardsIn s.hub.maxFrameBytes (framesWritten a s s') = [] ∨
        rewardsIn s.hub.maxFrameBytes (framesWritten a s s') = [r])
      (h : Shift s s' s.backstage (s.endpoints.map (Endpoint.holding c.generation rest)))
  /-- The aggregator records the oldest event. -/
  | records (e : WorkEvent) (action : a = .step .aggregator)
      (running : s.aggregator = some .running) (items : s.queue.items = e :: s'.queue.items)
      (h : Shift s s' (s.backstage.recording s.clock e) s.endpoints)
  /-- The aggregator stops. -/
  | finishes (action : a = .step .aggregator) (running : s.aggregator = some .running)
      (empty : s.queue.items = []) (ended : s.workEnded = true) (silent : Silent a s s')
      (h : Shift s s'
        { s.backstage with
          aggregator := some .stopped, rewardSenders := s.rewardSenders.erase .consumer }
        s.endpoints)
  /-- The notifier hands a reward over to the connection that holds the key. -/
  | delivers (r : RewardEvent) (rest : List RewardEvent) (x : Endpoint)
      (action : a = .step .notifier) (running : s.notifier = .running)
      (rewards : s.rewards = r :: rest) (hx : x ∈ s.endpoints) (key : x.key = r.target)
      (live : s.registry.find r.target = some x.generation) (silent : Silent a s s')
      (h : Shift s s'
        { s.backstage with rewards := rest, delivered := s.backstage.delivered + 1 }
        (s.endpoints.map
          (Endpoint.holding x.generation (x.rewards ++ r.payload.reward?.toList))))
  /-- The notifier finds nobody to hand a reward over to. -/
  | drops (r : RewardEvent) (rest : List RewardEvent) (action : a = .step .notifier)
      (running : s.notifier = .running) (rewards : s.rewards = r :: rest) (silent : Silent a s s')
      (h : Shift s s'
        { s.backstage with rewards := rest, undelivered := s.backstage.undelivered + 1 }
        s.endpoints)
  /-- The notifier stops. -/
  | ends (action : a = .step .notifier) (running : s.notifier = .running)
      (empty : s.rewards = []) (ended : s.rewardsEnded = true) (silent : Silent a s s')
      (h : Shift s s' { s.backstage with notifier := .stopped } s.endpoints)

/-- Where nothing goes from the work queue nothing is consumed. -/
theorem consumed_of_same {a : Action} {s s' : Server}
    (h : a.reader = none → s'.queue.items = s.queue.items) (l : Ledger) :
    (l.noting a s s').consumed = l.consumed := by
  rw [Ledger.noting]
  cases hr : a.reader with
  | some g => rfl
  | none =>
      dsimp only
      split
      · rfl
      · rw [h hr, gone_self]
        exact List.append_nil _

/-- An event that went from the work queue was consumed. -/
theorem consumed_of_taken {a : Action} {s s' : Server} {e : WorkEvent} (reader : a.reader = none)
    (consumer : a.isAbandon = false) (items : s.queue.items = e :: s'.queue.items) (l : Ledger) :
    (l.noting a s s').consumed = l.consumed ++ [e] := by
  rw [← List.singleton_append] at items
  simp only [Ledger.noting, reader, consumer, items, gone_append]
  rfl

theorem framesWritten_of_writer {a : Action} (h : a.writer = none) (s s' : Server) :
    framesWritten a s s' = [] := by
  rw [framesWritten, h]
  rfl

/-- An action of others than the loops. -/
theorem Silent.of_queue {a : Action} {s s' : Server} (writer : a.writer = none)
    (queue : s'.queue = s.queue) : Silent a s s' :=
  ⟨fun _ => by rw [queue], by rw [framesWritten_of_writer writer]; rfl⟩

theorem Silent.of_reader {a : Action} {s s' : Server} {g : Nat} (reader : a.reader = some g)
    (writer : a.writer = none) : Silent a s s' :=
  ⟨fun h => by simp [reader] at h, by rw [framesWritten_of_writer writer]; rfl⟩

theorem Silent.refl (a : Action) (s : Server) : Silent a s s := by
  refine ⟨fun _ => rfl, ?_⟩
  rw [framesWritten]
  cases a.writer.bind s.connection? with
  | none => rfl
  | some c =>
      rw [Option.elim_some, come_self]
      rfl

section

variable {a : Action} {s s' : Server}

/-- A step of a read loop, whether it has noticed a signal or not. -/
theorem backstage_readAs (hosted : Hosted s) {c d : Connection}
    (reader : a.reader = some c.generation) (writer : a.writer = none)
    (found : s.connection? c.generation = some c) (hd : d = c ∨ d = c.unaware)
    (h : s.readAs d = some s') : BackstageStep a s s' := by
  have hsilent : Silent a s s' := .of_reader reader writer
  have hreader : d.reader = c.reader := by rcases hd with rfl | rfl <;> rfl
  have hgeneration : d.generation = c.generation := by rcases hd with rfl | rfl <;> rfl
  have hruns (hr : d.reader ≠ .stopped) : Runs d.generation s := by
    intro x hx hg
    rw [endpoint_of_generation hosted found hx (hg.trans hgeneration)]
    simpa [Connection.endpoint, ← hreader] using hr
  cases readCase_of_readAs h with
  | waiting since l phase _ hstep =>
      exact .aside hsilent (aside_readWaiting (hruns (by simp [phase])) hstep)
  | offering e phase hstep =>
      exact .aside hsilent (hstep ▸ aside_readOffering (hruns (by simp [phase])) e)
  | queued e phase hstep =>
      exact .aside hsilent (aside_readQueued (hruns (by simp [phase])) hstep)
  | granted e phase hstep =>
      exact .aside hsilent (hstep ▸ aside_readGranted (hruns (by simp [phase])) e)
  | leaving _ hstep =>
      refine .retires c found hsilent ?_
      rw [← hgeneration, ← hstep]
      exact shift_readLeaving d s

/-- A step of a write loop, whatever it has noticed. -/
theorem backstage_writeAs (hosted : Hosted s) {c d : Connection}
    (writer : a.writer = some c.generation) (found : s.connection? c.generation = some c)
    (hendpoint : d.endpoint = c.endpoint) (h : s.writeAs d = some s') : BackstageStep a s s' := by
  have hgeneration : d.generation = c.generation := congrArg Endpoint.generation hendpoint
  have hlink : d.link = c.link := congrArg Endpoint.link hendpoint
  have hqueue : s'.queue.items = s.queue.items := by rw [(sameIntake_writeAs h).queue]
  have hwritten : framesWritten a s s' = come (s.outgoing d.link) (s'.outgoing d.link) := by
    rw [framesWritten, writer, Option.bind_some, found, hlink]
    rfl
  have hsame : ∀ x ∈ s.endpoints, x.generation = d.generation → x.rewards = d.endpoint.rewards := by
    intro x hx hg
    rw [endpoint_of_generation hosted found hx (hg.trans hgeneration), hendpoint]
  cases writeAs_cases h hsame with
  | aside haside hwrote =>
      exact .aside ⟨fun _ => hqueue, by rw [hwritten]; exact hwrote⟩ haside
  | takes r rest hheld hshift hwrote =>
      rw [hendpoint] at hheld
      rw [hgeneration] at hshift
      rw [← hwritten] at hwrote
      exact .takes c r rest writer found hheld hqueue hwrote hshift

theorem queue_register (key : WorkerKey) (link : Nat) (s : Server) :
    (s.register key link).2.queue = s.queue := by
  by_cases hopen : s.registry.isOpen = true
  · simp only [register, Registry.register, hopen, if_true]
    rw [((quiet_wakeAll _ _).trans (quiet_bump .connections _)).sameIntake.queue]
    exact ((sameIntake_of_registry _ s).trans (sameIntake_replace key _ _)).queue
  · rw [Bool.not_eq_true] at hopen
    rw [register_of_closed hopen]
    exact (quiet_dropLink link s).sameIntake.queue

theorem backstage_register {key : WorkerKey} {link : Nat}
    (origin : a = .register key link ∨ (key, link) ∈ s.upgrades) (writer : a.writer = none) :
    BackstageStep a s (s.register key link).2 := by
  have hsilent : Silent a s (s.register key link).2 :=
    .of_queue writer (queue_register key link s)
  by_cases hopen : s.registry.isOpen = true
  · exact .joins key link origin hsilent hopen (shift_register hopen key link)
  · rw [Bool.not_eq_true] at hopen
    rw [register_of_closed hopen] at hsilent ⊢
    exact .aside hsilent (aside_dropLink link s)

/-- A connection that waited to be registered waits no longer. -/
theorem aside_withdrawn (u : WorkerKey × Nat) (s : Server) :
    Aside s { s with upgrades := s.upgrades.erase u } :=
  ⟨rfl, rfl, List.erase_subset, Nat.le_refl _, id⟩

theorem backstage_upgradeStep {link : Nat} (writer : a.writer = none)
    (h : s.upgradeStep link = some s') : BackstageStep a s s' := by
  cases upgradeCase_of_upgradeStep h with
  | joins key waits isOpen h =>
      subst h
      have hleft := aside_withdrawn (key, link) s
      exact .joins key link (.inr waits) (.of_queue writer (queue_register key link _)) isOpen
        (Shift.trans hleft
          (shift_register (s := { s with upgrades := s.upgrades.erase (key, link) }) isOpen key link))
  | refused key waits closed h =>
      subst h
      have hleft := aside_withdrawn (key, link) s
      exact .aside (.of_queue writer ((quiet_dropLink link _).trans (quiet_note _ _)).sameIntake.queue)
        ((hleft.trans (aside_dropLink link _)).trans (aside_note _ _))

theorem aside_failUpgrade (link : Nat) (s : Server) : Aside s (s.failUpgrade link) := by
  rcases failUpgrade_cases link s with h | ⟨key, -, h⟩
  · rw [h]
    exact .refl s
  · rw [h]
    exact ((aside_withdrawn (key, link) s).trans (aside_note _ _)).trans (aside_dropLink link _)

theorem takeEvent_eq_none (h : s.takeEvent = none) : s.queue.items = [] := by
  unfold takeEvent WorkQueue.take at h
  cases hi : s.queue.items with
  | nil => rfl
  | cons e rest => simp [hi] at h

theorem backstage_aggregateStep (action : a = .step .aggregator) (h : s.aggregateStep = some s') :
    BackstageStep a s s' := by
  have hwriter : a.writer = none := by rw [action]; rfl
  unfold aggregateStep at h
  split at h
  · rename_i hrunning
    split at h
    · rename_i e t htake
      obtain rfl := Option.some.inj h
      have hbooks := sameBooks_takeEvent htake
      have hitems := items_takeEvent htake
      obtain ⟨q, -, -, -, rfl⟩ := takeEvent_eq_some htake
      have htaken := (aside_queue q.release.2 s).trans (aside_grantSlot q.release.1 _)
      have hshift := Shift.trans htaken (shift_processEvent e _)
      rw [htaken.backstage, htaken.endpoints, hbooks.clock] at hshift
      refine .records e action hrunning ?_ hshift
      rw [(quiet_processEvent e _).sameIntake.queue]
      exact hitems
    · rename_i htake
      split at h
      · rename_i hended
        obtain rfl := Option.some.inj h
        have hstop : Shift s ({ s with aggregator := some .stopped }.dropRewardSender .consumer)
            { s.backstage with
              aggregator := some .stopped, rewardSenders := s.rewardSenders.erase .consumer }
            s.endpoints :=
          .of_fields rfl rfl rfl rfl rfl
        have hqueue := (quiet_wake .notifier
          ({ s with aggregator := some .stopped }.dropRewardSender .consumer)).sameIntake.queue
        exact .finishes action hrunning (takeEvent_eq_none htake) hended
          (.of_queue hwriter hqueue) (hstop.before (aside_wake _ _))
      · simp at h
  · simp at h

theorem deliver_of_accepted {r : RewardEvent} (h : (s.sendTo r.target r.payload).1 = true) :
    s.deliver r = (s.sendTo r.target r.payload).2.bump .rewardsDelivered := by
  unfold deliver
  split <;> rename_i heq <;> rw [heq] at h ⊢
  cases h

theorem deliver_of_refused {r : RewardEvent} (h : (s.sendTo r.target r.payload).1 = false) :
    s.deliver r = (s.sendTo r.target r.payload).2.bump .rewardsUndelivered := by
  unfold deliver
  split <;> rename_i heq <;> rw [heq] at h ⊢
  cases h

theorem shift_bump_delivered (s : Server) :
    Shift s (s.bump .rewardsDelivered)
      { s.backstage with delivered := s.backstage.delivered + 1 } s.endpoints := by
  refine .of_fields ?_ rfl rfl rfl rfl
  simp [backstage, bump, Tally.bump, Tally.get_add]

theorem shift_bump_undelivered (s : Server) :
    Shift s (s.bump .rewardsUndelivered)
      { s.backstage with undelivered := s.backstage.undelivered + 1 } s.endpoints := by
  refine .of_fields ?_ rfl rfl rfl rfl
  simp [backstage, bump, Tally.bump, Tally.get_add]

theorem backstage_notifyStep (hosted : Hosted s) (action : a = .step .notifier)
    (h : s.notifyStep = some s') : BackstageStep a s s' := by
  have hwriter : a.writer = none := by rw [action]; rfl
  have hqueue := (quiet_notifyStep h).sameIntake.queue
  have hsilent : Silent a s s' := .of_queue hwriter hqueue
  unfold notifyStep at h
  split at h
  · rename_i hrunning
    split at h
    · rename_i r rest hrewards
      obtain rfl := Option.some.inj h
      have htake : Shift s { s with rewards := rest } { s.backstage with rewards := rest }
          s.endpoints := .of_fields rfl rfl rfl rfl rfl
      have hhosted : Hosted { s with rewards := rest } := hosted.between ⟨rfl, rfl⟩
      rcases shift_sendTo hhosted r.target r.payload with ⟨hsent, x, hx, hkey, hlive, hpost⟩ |
          ⟨hsent, hpost⟩
      · refine .delivers r rest x action hrunning hrewards hx hkey hlive hsilent ?_
        have hcount := (htake.trans hpost).trans (shift_bump_delivered _)
        rw [hpost.backstage, htake.backstage, hpost.endpoints] at hcount
        rw [deliver_of_accepted hsent]
        exact hcount
      · refine .drops r rest action hrunning hrewards hsilent ?_
        have hcount := (htake.trans hpost).trans (shift_bump_undelivered _)
        rw [hpost.backstage, htake.backstage, hpost.endpoints] at hcount
        rw [deliver_of_refused hsent]
        exact hcount
    · rename_i hrewards
      split at h
      · rename_i hended
        obtain rfl := Option.some.inj h
        exact .ends action hrunning hrewards hended hsilent (.of_fields rfl rfl rfl rfl rfl)
      · simp at h
  · simp at h

end

/-- A message that a caller sends. -/
theorem backstage_message {a : Action} {s s' : Server} {m : ServerMessage}
    (brings : a.bringsReward = m.reward?.isSome) (silent : Silent a s s') (posted : Posted s s')
    (aside : m.reward? = none → Aside s s') : BackstageStep a s s' := by
  cases hr : m.reward? with
  | none => exact .aside silent (aside hr)
  | some r => exact .posts (by rw [brings, hr]; rfl) silent posted

/-- **Everything that an action does behind the work queue of a supervised server.** -/
theorem backstage_act {s : Server} (hosted : Hosted s) {a : Action}
    (supervised : a.isSupervised = true) : BackstageStep a s (s.act a) := by
  have hrest : BackstageStep a s s := .aside (.refl a s) (.refl s)
  cases a with
  | step t =>
      refine getD_of_forall hrest fun s' hs => ?_
      cases t with
      | reader g =>
          rw [Server.step, readStep_eq] at hs
          obtain ⟨c, found, hc⟩ := Option.bind_eq_some_iff.mp hs
          obtain rfl := generation_of_connection? found
          exact backstage_readAs hosted rfl rfl found (.inl rfl) hc
      | writer g =>
          rw [Server.step, writeStep_eq] at hs
          obtain ⟨c, found, hc⟩ := Option.bind_eq_some_iff.mp hs
          obtain rfl := generation_of_connection? found
          exact backstage_writeAs hosted rfl found rfl hc
      | peer n =>
          exact .aside (.of_queue rfl (quiet_peerStep hs).sameIntake.queue) (aside_peerStep hs)
      | upgrade link => exact backstage_upgradeStep rfl hs
      | aggregator => exact backstage_aggregateStep rfl hs
      | notifier => exact backstage_notifyStep hosted rfl hs
  | readEarly g =>
      refine getD_of_forall hrest fun s' hs => ?_
      obtain ⟨c, found, hc⟩ := Option.bind_eq_some_iff.mp hs
      obtain rfl := generation_of_connection? found
      exact backstage_readAs hosted rfl rfl found (.inr rfl) hc
  | writeEarly g ping =>
      refine getD_of_forall hrest fun s' hs => ?_
      obtain ⟨c, found, hc⟩ := Option.bind_eq_some_iff.mp hs
      obtain rfl := generation_of_connection? found
      refine backstage_writeAs hosted rfl found ?_ hc
      split <;> rfl
  | register key link => exact backstage_register (.inl rfl) rfl
  | unregister key =>
      exact .aside (.of_queue rfl (sameIntake_unregister key s).queue) (aside_unregister key s)
  | close => exact .aside (.of_queue rfl (sameIntake_closeHub s).queue) (aside_closeHub s)
  | sendTo key m =>
      exact backstage_message rfl (.of_queue rfl (quiet_sendTo key m s).sameIntake.queue)
        (posted_sendTo key m s) fun h => aside_sendTo h key s
  | broadcast m =>
      exact backstage_message rfl (.of_queue rfl (quiet_broadcast m s).sameIntake.queue)
        (posted_broadcast m s) fun h => aside_broadcast h s
  | upgrade key link =>
      have hwake := quiet_wake (.upgrade link) { s with upgrades := s.upgrades ++ [(key, link)] }
      obtain ⟨agenda, h⟩ := exists_wakeAll [.upgrade link]
        { s with upgrades := s.upgrades ++ [(key, link)] }
      refine .waits key link rfl (.of_queue rfl hwake.sameIntake.queue) ?_ ?_
      · exact congrArg Server.upgrades h
      · have hupgrades : (s.act (.upgrade key link)).upgrades = s.upgrades ++ [(key, link)] :=
          congrArg Server.upgrades h
        rw [hupgrades]
        exact aside_wake (.upgrade link) _
  | failUpgrade link =>
      exact .aside (.of_queue rfl (quiet_failUpgrade link s).sameIntake.queue)
        (aside_failUpgrade link s)
  | connect l =>
      refine .aside (.of_queue rfl rfl) ⟨rfl, rfl, List.Subset.refl _, ?_, id⟩
      simp [act, addLink]
  | remote n l =>
      exact .aside
        (.of_queue rfl ((quiet_modifyLink n _ s).trans (quiet_wakeLoops n _)).sameIntake.queue)
        ((aside_modifyLink n _ s).trans (aside_wakeLoops n _))
  | clock c => exact .aside (.of_queue rfl rfl) (.of_fields rfl rfl rfl rfl rfl)
  | schedule agenda => exact .aside (.of_queue rfl rfl) (aside_agenda agenda s)
  | take => cases supervised
  | abandon => cases supervised
  | reward r => cases supervised
  | endRewards => cases supervised

end Foreman.Server
