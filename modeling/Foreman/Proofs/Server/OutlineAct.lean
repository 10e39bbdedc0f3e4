/-
What an action makes of an outline.

The outline after an action can be told from the outline before it, from who is registered
and from what the read loops see of their links: `outline_act` says so for every action.
Whether a loop is told to stop needs no telling, as the loops that are told are those whose
connection is registered no longer.  What the aggregator emits can be told likewise, up to
what a reward says about the result that it is for.
-/
import Foreman.Proofs.Server.OutlineStep
import Foreman.Proofs.Server.Rewards

namespace Foreman.Server

/-! ### What a step is told from -/

/-- The key of a connection is live, and it is this connection's. -/
def Registry.holds (x : Member) (r : Registry) : Bool := decide (r.find x.key = some x.generation)

/-- What the read loops see of a link. -/
def view? (n : Nat) (s : Server) : Option View :=
  (s.link? n).map (Link.view s.hub.maxFrameBytes)

/-- The loops of a connection are told to stop if it is registered no longer. -/
theorem shutdown_eq {s : Server} (hosted : Hosted s) {c : Connection} (hc : c ∈ s.connections) :
    c.shutdown = !s.registry.holds c.member := by
  have hsignals : c.stopSignals = if s.registry.find c.key = some c.generation then 0 else 1 :=
    hosted.tended.signals c.standing (List.mem_map_of_mem hc)
  have hholds : s.registry.holds c.member = decide (s.registry.find c.key = some c.generation) :=
    rfl
  rw [Connection.shutdown, hsignals, hholds]
  split <;> simp_all

/-- The connection of a generation. -/
def Outline.member? (g : Nat) (o : Outline) : Option Member :=
  o.members.find? (·.generation == g)

theorem member?_outline (g : Nat) (s : Server) :
    s.outline.member? g = (s.connection? g).map Connection.member := by
  rw [Outline.member?, connection?, outline, List.find?_map]
  rfl

/-! ### Actions -/

namespace Outline

/-- A step of the read loop of a generation; `stop` says of which connections the loops notice that
they are told to stop. -/
def readsOf (g : Nat) (stop : Member → Bool) (view : Nat → Option View) (o : Outline) : Outline :=
  ((o.member? g).bind fun x => o.reads x (stop x) (view x.link)).getD o

/-- A step of the aggregator. -/
def aggregates (o : Outline) : Outline :=
  if o.aggregator = some .running then
    match o.takes with
    | some (key, o) => o.records key
    | none => if o.senders.isEmpty then { o with aggregator := some .stopped } else o
  else o

/-- A connection is registered, if registrations are accepted. -/
def registers (r : Registry) (key : WorkerKey) (link : Nat) (o : Outline) : Outline :=
  if r.isOpen then o.joined key (r.lastGeneration + 1) link else o

/-- The connection that was upgraded over a link waits no longer. -/
def withdraws (link : Nat) (o : Outline) : Option (WorkerKey × Outline) :=
  (o.upgrades.find? (·.2 == link)).map fun u => (u.1, { o with upgrades := o.upgrades.erase u })

/-- The connection that was upgraded over a link is registered. -/
def upgraded (r : Registry) (link : Nat) (o : Outline) : Outline :=
  (o.withdraws link).elim o fun u => u.2.registers r u.1 link

/-- What an action makes of an outline, with this registry and these views of the links. -/
def acts (r : Registry) (view : Nat → Option View) (a : Action) (o : Outline) : Outline :=
  match a with
  | .step (.reader g) => o.readsOf g (fun x => !r.holds x) view
  | .step .aggregator => o.aggregates
  | .step (.upgrade link) => o.upgraded r link
  | .readEarly g => o.readsOf g (fun _ => false) view
  | .register key link => o.registers r key link
  | .close => { o with senders := o.senders.erase .hub }
  | .upgrade key link => { o with upgrades := o.upgrades ++ [(key, link)] }
  | .failUpgrade link => (o.withdraws link).elim o (·.2)
  | .clock c => { o with clock := c }
  | .take => (o.takes.map (·.2)).getD o
  | .abandon => { o with line := { o.line with abandoned := true, items := [] } }
  | _ => o

end Outline

section

variable {s : Server}

theorem outline_getD (next : Option Server) (s : Server) :
    (next.getD s).outline = (next.map outline).getD s.outline := by
  cases next <;> rfl

theorem outline_readStep (hosted : Hosted s) (g : Nat) :
    (s.act (.step (.reader g))).outline =
      s.outline.readsOf g (fun x => !s.registry.holds x) (s.view? ·) := by
  rw [act, step, readStep_eq, outline_getD, Outline.readsOf, member?_outline]
  cases hc : s.connection? g with
  | none => rfl
  | some c =>
    have hmem : c ∈ s.connections := List.mem_of_find?_eq_some hc
    rw [Option.bind_some, Option.map_some, Option.bind_some, outline_readAs,
      shutdown_eq hosted hmem]
    rfl

theorem outline_readEarly (g : Nat) (s : Server) :
    (s.act (.readEarly g)).outline = s.outline.readsOf g (fun _ => false) (s.view? ·) := by
  rw [act, outline_getD, Outline.readsOf, member?_outline]
  cases s.connection? g with
  | none => rfl
  | some c =>
    rw [Option.bind_some, Option.map_some, Option.bind_some, outline_readAs]
    rfl

theorem outline_aggregateStep (s : Server) :
    (s.act (.step .aggregator)).outline = s.outline.aggregates := by
  have htakes := outline_takeEvent s
  have hrunning : s.outline.aggregator = s.aggregator := rfl
  have hended : s.outline.senders.isEmpty = s.workEnded := rfl
  rw [act, step, aggregateStep, Outline.aggregates, ← htakes, hrunning, hended]
  split
  · cases s.takeEvent with
    | none =>
      dsimp only [Option.map_none]
      split
      · rw [Option.getD_some, outline_wake]
        rfl
      · rfl
    | some p => exact outline_processEvent p.1 p.2
  · rfl

theorem outline_registers (key : WorkerKey) (link : Nat) (s : Server) :
    (s.register key link).2.outline = s.outline.registers s.registry key link := by
  rw [Outline.registers]
  split
  · exact outline_register ‹_› key link
  · exact outline_register_of_closed (Bool.eq_false_iff.mpr ‹_›) key link

theorem outline_takeUpgrade (link : Nat) (s : Server) :
    (s.takeUpgrade link).map (fun u => (u.1, u.2.outline)) = s.outline.withdraws link := by
  rw [takeUpgrade, Option.map_map]
  rfl

theorem outline_upgradeStep (link : Nat) (s : Server) :
    (s.act (.step (.upgrade link))).outline = s.outline.upgraded s.registry link := by
  rw [act, step, upgradeStep, Outline.upgraded, ← outline_takeUpgrade]
  cases htake : s.takeUpgrade link with
  | none => rfl
  | some u =>
    obtain ⟨-, hu⟩ := takeUpgrade_eq_some htake
    have hregistered := outline_registers u.1 link u.2
    have hregistry : u.2.registry = s.registry := by rw [hu]
    rw [hregistry] at hregistered
    dsimp only
    split <;> rename_i heq <;> rw [heq] at hregistered <;> exact hregistered

theorem outline_failUpgrade (link : Nat) (s : Server) :
    (s.failUpgrade link).outline = (s.outline.withdraws link).elim s.outline (·.2) := by
  rw [failUpgrade, ← outline_takeUpgrade]
  cases s.takeUpgrade link with
  | none => rfl
  | some u => exact outline_dropLink _ _

/-- **The outline after an action can be told from the one before it.** -/
theorem outline_act (hosted : Hosted s) (a : Action) :
    (s.act a).outline = s.outline.acts s.registry (s.view? ·) a := by
  cases a with
  | step t =>
    cases t with
    | reader g => exact outline_readStep hosted g
    | writer g =>
      refine getD_of_forall (P := fun s' => s'.outline = s.outline) rfl fun s' hs => ?_
      rw [step, writeStep_eq] at hs
      obtain ⟨c, -, hc⟩ := Option.bind_eq_some_iff.mp hs
      exact outline_writeAs hc
    | peer n =>
      exact getD_of_forall (P := fun s' => s'.outline = s.outline) rfl fun s' => outline_peerStep
    | upgrade link => exact outline_upgradeStep link s
    | aggregator => exact outline_aggregateStep s
    | notifier =>
      exact getD_of_forall (P := fun s' => s'.outline = s.outline) rfl fun s' => outline_notifyStep
  | readEarly g => exact outline_readEarly g s
  | writeEarly g ping =>
    refine getD_of_forall (P := fun s' => s'.outline = s.outline) rfl fun s' hs => ?_
    obtain ⟨c, -, hc⟩ := Option.bind_eq_some_iff.mp hs
    exact outline_writeAs hc
  | register key link => exact outline_registers key link s
  | unregister key => exact outline_unregister key s
  | close => exact outline_closeHub s
  | sendTo key m => exact outline_sendTo key m s
  | broadcast m => exact outline_broadcast m s
  | upgrade key link => exact outline_wake _ _
  | failUpgrade link => exact outline_failUpgrade link s
  | connect l => rfl
  | remote n l => exact (outline_wakeLoops n _).trans (outline_modifyLink n _ s)
  | clock c => rfl
  | schedule agenda => rfl
  | take =>
    have htakes := outline_takeEvent s
    rw [act, outline_getD, Outline.acts, ← htakes]
    cases s.takeEvent <;> rfl
  | abandon => exact outline_wakeAll _ _
  | reward r => exact outline_wake _ _
  | endRewards => exact outline_wake _ _

end

/-! ### Rewards -/

/-- To whom a reward goes and, as far as it is one, how many results it says that there are and
when it says that it was earned.  What it says of its result is left out. -/
def RewardEvent.terms (r : RewardEvent) : WorkerKey × Option (UInt64 × Int64) :=
  (r.target,
    match r.payload with
    | .rewardEarned x => some (x.totalResults, x.awardedAtMs)
    | .workGenerate _ => none)

/-- The rewards that the aggregator queues in an action. -/
def emits (a : Action) (s : Server) : List RewardEvent :=
  match a with
  | .step .aggregator => come s.rewards (s.act a).rewards
  | _ => []

/-- The terms of what an event of a key earns that brings the results of its provider to `n`, if
that number is known. -/
def earned (payout : Payout) (clock : Clock) (key : WorkerKey) (n : Option Nat) :
    List (WorkerKey × Option (UInt64 × Int64)) :=
  n.elim [] fun n =>
    if payout.pays ⟨n, 0⟩ then [(key, some (UInt64.ofNat n, clock.unixMs))] else []

/-- The terms of the rewards that the aggregator queues in an action. -/
def Outline.emits (a : Action) (o : Outline) : List (WorkerKey × Option (UInt64 × Int64)) :=
  match a with
  | .step .aggregator =>
    if o.aggregator = some .running then
      o.takes.elim [] fun p => earned o.payout o.clock p.1 (o.books.record p.1).1
    else []
  | _ => []

theorem terms_processEvent (e : WorkEvent) (s : Server) :
    (come s.rewards (s.processEvent e).rewards).map RewardEvent.terms =
      earned s.payout s.clock e.workerKey (s.store.books.record e.workerKey).1 := by
  rw [(processEvent_spec e s).2, come_append, ← congrArg Prod.fst (s.store.books_recordWork e)]
  cases (s.store.recordWork e).1 with
  | error err => rfl
  | ok tally =>
    -- the decision does not look at the results of the requester
    have hpays : s.payout.pays tally = s.payout.pays ⟨tally.providerResults, 0⟩ := rfl
    dsimp only [Except.toOption, Option.map_some, earned, Option.elim_some]
    rw [hpays]
    split <;> rfl

/-- **The terms of the rewards can be told from the outline.** -/
theorem terms_emits (a : Action) (s : Server) :
    (s.emits a).map RewardEvent.terms = s.outline.emits a := by
  unfold emits Outline.emits
  split
  · have hrunning : s.outline.aggregator = s.aggregator := rfl
    rw [act, step, aggregateStep, hrunning, ← outline_takeEvent]
    split
    · cases htake : s.takeEvent with
      | none =>
        dsimp only [Option.map_none, Option.elim_none]
        split
        · rw [Option.getD_some, (sameBooks_wake _ _).rewards]
          exact congrArg (List.map RewardEvent.terms) (come_self s.rewards)
        · rw [Option.getD_none, come_self]
          rfl
      | some p =>
        have hbooks : SameBooks s p.2 := sameBooks_takeEvent htake
        have hterms := terms_processEvent p.1 p.2
        rw [hbooks.rewards, hbooks.payout, hbooks.clock, hbooks.store] at hterms
        exact hterms
    · rw [Option.getD_none, come_self]
      rfl
  · rfl

end Foreman.Server
