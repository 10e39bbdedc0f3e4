/-
What an action does on the way from the sockets to the consumer.

Most actions do nothing there.  Those that do are the steps of the read loops, the
registration of a connection, which begins with nothing read, and what the consumer
does: it takes the oldest event, or it ends.  `act_cases` puts every action into
one of these cases, with all that the case changes, so that what is said about a
run of the server needs one short proof for each case and no look at the actions.
-/
import Foreman.Proofs.Server.Slots

namespace Foreman.Server

/-! ### What an action does to the intake -/

/-- The connection whose read loop may take a step in an action. -/
def Action.reader : Action → Option Nat
  | .step (.reader g) => some g
  | .readEarly g => some g
  | _ => none

/-- The action is the end of the consumer of the work queue. -/
def Action.isAbandon : Action → Bool
  | .abandon => true
  | _ => false

/-- What an action does on the way from the sockets to the consumer. -/
inductive IntakeStep (a : Action) (s s' : Server) : Prop where
  /-- It does nothing at all. -/
  | rests (h : s' = s)
  /-- It does nothing that the work queue sees. -/
  | still (reader : a.reader = none) (consumer : a.isAbandon = false) (h : SameIntake s s')
  /-- A connection begins. -/
  | joins (key : WorkerKey) (reader : a.reader = none) (consumer : a.isAbandon = false)
      (hub : s'.hub = s.hub) (queue : s'.queue = s.queue) (grants : s'.grants = s.grants)
      (readings : s'.readings = s.readings ++ [⟨key, s.registry.lastGeneration + 1, [], true⟩])
  /-- A read loop takes a step. -/
  | reads (c : Connection) (reader : a.reader = some c.generation)
      (found : s.connection? c.generation = some c) (slots : s'.slots ≤ s.slots)
      (h : ReadStroke c s s')
  /-- The consumer takes the oldest event. -/
  | consumes (e : WorkEvent) (reader : a.reader = none) (consumer : a.isAbandon = false)
      (hub : s'.hub = s.hub) (abandoned : s'.queue.abandoned = s.queue.abandoned)
      (items : s.queue.items = e :: s'.queue.items) (readings : s'.readings = s.readings)
      (slots : s'.slots ≤ s.slots)
  /-- The consumer ends, and the events on the queue with it. -/
  | abandons (reader : a.reader = none) (consumer : a.isAbandon = true) (hub : s'.hub = s.hub)
      (abandoned : s'.queue.abandoned = true) (items : s'.queue.items = [])
      (readings : s'.readings = s.readings) (slots : s'.slots ≤ s.slots)

/-- What a still change comes after does the same. -/
theorem IntakeStep.before {a : Action} {s s₁ s' : Server} (h : IntakeStep a s s₁)
    (reader : a.reader = none) (consumer : a.isAbandon = false) (hs : SameIntake s₁ s') :
    IntakeStep a s s' := by
  cases h with
  | rests h => exact .still reader consumer (h ▸ hs)
  | still _ _ h => exact .still reader consumer (h.trans hs)
  | joins key _ _ hub queue grants readings =>
    exact .joins key reader consumer (hs.hub.trans hub) (hs.queue.trans queue)
      (hs.grants.trans grants) (hs.readings.trans readings)
  | reads c hreader _ _ _ => simp [reader] at hreader
  | consumes e _ _ hub abandoned items readings slots =>
    exact .consumes e reader consumer (hs.hub.trans hub) (by rw [hs.queue, abandoned])
      (by rw [items, hs.queue]) (hs.readings.trans readings) (by rw [hs.slots]; exact slots)
  | abandons _ hc _ _ _ _ _ => simp [consumer] at hc

/-- What a still change comes before does the same. -/
theorem IntakeStep.after {a : Action} {s s₁ s' : Server} (h : IntakeStep a s₁ s')
    (reader : a.reader = none) (consumer : a.isAbandon = false) (hs : SameIntake s s₁)
    (hr : s₁.registry = s.registry) : IntakeStep a s s' := by
  cases h with
  | rests h => exact .still reader consumer (h ▸ hs)
  | still _ _ h => exact .still reader consumer (hs.trans h)
  | joins key _ _ hub queue grants readings =>
    exact .joins key reader consumer (hub.trans hs.hub) (queue.trans hs.queue)
      (grants.trans hs.grants) (by rw [readings, hs.readings, hr])
  | reads c hreader _ _ _ => simp [reader] at hreader
  | consumes e _ _ hub abandoned items readings slots =>
    exact .consumes e reader consumer (hub.trans hs.hub) (by rw [abandoned, hs.queue])
      (by rw [← hs.queue, items]) (readings.trans hs.readings) (hs.slots ▸ slots)
  | abandons _ hc _ _ _ _ _ => simp [consumer] at hc

theorem sameIntake_replace (key : WorkerKey) (old : Option Nat) (s : Server) :
    SameIntake s (s.replace key old) := by
  cases old with
  | none => exact .refl s
  | some g =>
    have hnote := (quiet_note (.replacingConnection key g) s).trans
      (quiet_bump .connectionsReplaced _)
    exact hnote.sameIntake.trans (sameIntake_tellStop g _)

/-- A connection that is added has read nothing yet. -/
theorem intakeStep_start {a : Action} (reader : a.reader = none) (consumer : a.isAbandon = false)
    {s s₁ : Server} (h : SameIntake s s₁) (key : WorkerKey) (link : Nat) :
    IntakeStep a s { s₁ with
      connections := s₁.connections ++
        [Connection.start s₁ key (s.registry.lastGeneration + 1) link]
      workSenders := s₁.workSenders ++ [Sender.reader (s.registry.lastGeneration + 1)] } := by
  refine .joins key reader consumer h.hub h.queue ?_ ?_
  · rw [← h.grants]
    simp [grants, Connection.start, Reader.isGranted]
  · rw [← h.readings]
    simp [readings, Connection.reading, Connection.start, Reader.held, Reader.isRunning]

theorem intakeStep_register {a : Action} (reader : a.reader = none) (consumer : a.isAbandon = false)
    (key : WorkerKey) (link : Nat) (s : Server) : IntakeStep a s (s.register key link).2 := by
  by_cases hopen : s.registry.isOpen = true
  · simp only [register, Registry.register, hopen, if_true]
    refine IntakeStep.before (intakeStep_start reader consumer ?_ key link) reader consumer
      ((quiet_wakeAll _ _).trans (quiet_bump .connections _)).sameIntake
    exact ((sameIntake_of_registry _ s).trans (sameIntake_replace key _ _)).trans
      (quiet_showConnected _).sameIntake
  · rw [Bool.not_eq_true] at hopen
    rw [register_of_closed hopen]
    exact .still reader consumer (quiet_dropLink link s).sameIntake

theorem intakeStep_takeEvent {a : Action} (reader : a.reader = none)
    (consumer : a.isAbandon = false) {s s' : Server} {e : WorkEvent}
    (hn : (s.connections.map (·.generation)).Nodup) (h : s.takeEvent = some (e, s')) :
    IntakeStep a s s' := by
  have hslots := slots_takeEvent hn h
  have hitems := items_takeEvent h
  obtain ⟨q, -, -, habandoned, rfl⟩ := takeEvent_eq_some h
  refine .consumes e reader consumer (hub_grantSlot _ _) ?_ hitems (readings_grantSlot _ _) hslots
  rw [queue_grantSlot]
  exact (abandoned_release q).trans habandoned

theorem intakeStep_aggregateStep {a : Action} (reader : a.reader = none)
    (consumer : a.isAbandon = false) {s s' : Server}
    (hn : (s.connections.map (·.generation)).Nodup) (h : s.aggregateStep = some s') :
    IntakeStep a s s' := by
  unfold aggregateStep at h
  split at h
  · split at h
    · rename_i e t htake
      obtain rfl := Option.some.inj h
      exact .before (intakeStep_takeEvent reader consumer hn htake) reader consumer
        (quiet_processEvent e t).sameIntake
    · split at h
      · obtain rfl := Option.some.inj h
        have hstop : SameIntake s { s with aggregator := some .stopped } := ⟨rfl, rfl, rfl, rfl⟩
        exact .still reader consumer (hstop.trans ((quiet_dropRewardSender _ _).trans
          (quiet_wake _ _)).sameIntake)
      · simp at h
  · simp at h

theorem intakeStep_upgradeStep {a : Action} (reader : a.reader = none)
    (consumer : a.isAbandon = false) {link : Nat} {s s' : Server}
    (h : s.upgradeStep link = some s') : IntakeStep a s s' := by
  cases upgradeCase_of_upgradeStep h with
  | joins key _ _ h =>
    subst h
    exact (intakeStep_register reader consumer key link _).after reader consumer
      (quiet_withdrawn (key, link) s).sameIntake rfl
  | refused key _ _ h =>
    subst h
    exact .still reader consumer ((quiet_withdrawn (key, link) s).trans
      ((quiet_dropLink link _).trans (quiet_note _ _))).sameIntake

theorem sameIntake_writeAs {c : Connection} {s s' : Server} (h : s.writeAs c = some s') :
    SameIntake s s' := by
  rcases quiet_or_leaves_of_writeAs h with hquiet | hleaves
  · exact hquiet.sameIntake
  · exact (sameIntake_release c.key c.generation s).trans hleaves.sameIntake

theorem generations_standings (s : Server) :
    s.standings.map (·.generation) = s.connections.map (·.generation) := by
  simp [standings, Connection.standing]

theorem Hosted.nodup_generations {s : Server} (ok : Hosted s) :
    (s.connections.map (·.generation)).Nodup := by
  rw [← generations_standings]
  exact ok.tended.nodup_generations

theorem slots_abandonQueue_le (s : Server) : s.abandonQueue.slots ≤ s.slots := by
  rw [abandonQueue, (quiet_wakeAll _ _).sameIntake.slots, slots_of_queue]
  simp only [List.length_nil, slots]
  omega

/-- A step of the read loop with a number, whether it has noticed a signal or not. -/
theorem intakeStep_reads {a : Action} {s s' : Server} (ok : Hosted s) {g : Nat}
    (reader : a.reader = some g) {c d : Connection} (found : s.connection? g = some c)
    (hd : d = c ∨ d = c.unaware) (h : s.readAs d = some s') : IntakeStep a s s' := by
  obtain rfl := generation_of_connection? found
  have hholds : d.reader.isGranted = true → s.HoldsSlot d.generation := by
    intro hgranted
    refine ⟨c, List.mem_of_find?_eq_some found, ?_, ?_⟩ <;> rcases hd with rfl | rfl
    exacts [rfl, rfl, hgranted, hgranted]
  refine .reads c reader found (slots_readAs_le ok.nodup_generations hholds h) ?_
  rcases hd with rfl | rfl
  · exact readAs_cases h
  · exact (readAs_cases h).aware

/-- **Everything that an action can do to the intake.** -/
theorem act_cases {s : Server} (ok : Hosted s) (a : Action) : IntakeStep a s (s.act a) := by
  cases a with
  | step t =>
    refine getD_of_forall (.rests rfl) fun s' hs => ?_
    cases t with
    | reader g =>
      rw [Server.step, readStep_eq] at hs
      obtain ⟨c, found, hc⟩ := Option.bind_eq_some_iff.mp hs
      exact intakeStep_reads ok rfl found (.inl rfl) hc
    | writer g =>
      rw [Server.step, writeStep_eq] at hs
      obtain ⟨c, -, hc⟩ := Option.bind_eq_some_iff.mp hs
      exact .still rfl rfl (sameIntake_writeAs hc)
    | peer n => exact .still rfl rfl (quiet_peerStep hs).sameIntake
    | upgrade link => exact intakeStep_upgradeStep rfl rfl hs
    | aggregator => exact intakeStep_aggregateStep rfl rfl ok.nodup_generations hs
    | notifier => exact .still rfl rfl (quiet_notifyStep hs).sameIntake
  | readEarly g =>
    refine getD_of_forall (.rests rfl) fun s' hs => ?_
    obtain ⟨c, found, hc⟩ := Option.bind_eq_some_iff.mp hs
    exact intakeStep_reads ok rfl found (.inr rfl) hc
  | writeEarly g ping =>
    refine getD_of_forall (.rests rfl) fun s' hs => ?_
    obtain ⟨c, -, hc⟩ := Option.bind_eq_some_iff.mp hs
    exact .still rfl rfl (sameIntake_writeAs hc)
  | register key link => exact intakeStep_register rfl rfl key link s
  | unregister key => exact .still rfl rfl (sameIntake_unregister key s)
  | close => exact .still rfl rfl (sameIntake_closeHub s)
  | sendTo key m => exact .still rfl rfl (quiet_sendTo key m s).sameIntake
  | broadcast m => exact .still rfl rfl (quiet_broadcast m s).sameIntake
  | upgrade key link =>
    have hadd : SameIntake s { s with upgrades := s.upgrades ++ [(key, link)] } :=
      ⟨rfl, rfl, rfl, rfl⟩
    exact .still rfl rfl (hadd.trans (quiet_wake _ _).sameIntake)
  | failUpgrade link => exact .still rfl rfl (quiet_failUpgrade link s).sameIntake
  | connect l => exact .still rfl rfl ⟨rfl, rfl, rfl, rfl⟩
  | remote n l =>
    exact .still rfl rfl ((quiet_modifyLink n _ s).trans (quiet_wakeLoops n _)).sameIntake
  | clock c => exact .still rfl rfl ⟨rfl, rfl, rfl, rfl⟩
  | schedule agenda => exact .still rfl rfl ⟨rfl, rfl, rfl, rfl⟩
  | take =>
    refine getD_of_forall (.rests rfl) fun s' hs => ?_
    obtain ⟨⟨e, s''⟩, htake, rfl⟩ := Option.map_eq_some_iff.mp hs
    exact intakeStep_takeEvent rfl rfl ok.nodup_generations htake
  | abandon =>
    have hwake := (quiet_wakeAll (s.connections.map fun c => Task.reader c.generation)
      { s with queue := { s.queue with abandoned := true, items := [] } }).sameIntake
    exact .abandons rfl rfl hwake.hub (congrArg WorkQueue.abandoned hwake.queue)
      (congrArg WorkQueue.items hwake.queue) hwake.readings (slots_abandonQueue_le s)
  | reward r =>
    have hadd : SameIntake s { s with rewards := s.rewards ++ [r] } := ⟨rfl, rfl, rfl, rfl⟩
    exact .still rfl rfl (hadd.trans (quiet_wake _ _).sameIntake)
  | endRewards =>
    exact .still rfl rfl ((quiet_dropRewardSender _ s).trans (quiet_wake _ _)).sameIntake

end Foreman.Server
