/-
Runs of a server.

A run is a list of actions, and any list of them is one: a task takes its next
step, somebody calls an operation of the hub, the worker at the other end of a
socket does something to it, or time passes.  An action that has nothing to do
leaves the server as it is, so no order of them is excluded.

A loop that waits for several things at once may go on with any that has come.
The steps of the library prefer the signal to stop, and a ping to a message; the
actions `readEarly` and `writeEarly` are the choices that were not preferred, a
loop that goes on as though it had not noticed yet.

Two facts make runs usable.  As far as the hub can see an action is one of its four
operations or nothing, so `hubLog` collects what it answers in a run and `HubRun.after`
says that the run is no more than that to it; `exists_settle` and `exists_advance` say
that what the library's own schedule does is a run.
-/
import Foreman.Proofs.Server.Registry
import Foreman.Server.Schedule

namespace Foreman.Server

/-! ### The steps of a loop -/

/-- The step of a read loop that finds its connection to be `c`. -/
def readAs (c : Connection) (s : Server) : Option Server :=
  match c.reader with
  | .waiting since => (s.link? c.link).bind fun l => s.readWaiting c l since
  | .offering e => some (s.readOffering c e)
  | .queued _ => s.readQueued c
  | .granted e => some (s.readGranted c e)
  | .leaving => some (s.readLeaving c)
  | .stopped => none

/-- The step of a write loop that finds its connection to be `c`. -/
def writeAs (c : Connection) (s : Server) : Option Server :=
  (s.link? c.link).bind fun l =>
    match c.writer with
    | .idle => s.writeIdle c l
    | .sending isText => s.writeSending c l isText
    | .closing untilMs => s.writeClosing c l untilMs
    | .leaving => some (s.writeLeaving c)
    | .stopped => none

theorem readStep_eq (g : Nat) (s : Server) :
    s.readStep g = (s.connection? g).bind fun c => s.readAs c := by
  unfold readStep
  cases s.connection? g with
  | none => rfl
  | some c => cases hr : c.reader <;> simp [readAs, hr, bind]

theorem writeStep_eq (g : Nat) (s : Server) :
    s.writeStep g = (s.connection? g).bind fun c => s.writeAs c := by
  unfold writeStep
  cases s.connection? g with
  | none => rfl
  | some c =>
    cases hl : s.link? c.link with
    | none => simp [writeAs, hl, bind]
    | some l => cases hw : c.writer <;> simp [writeAs, hl, hw, bind]

/-- What a step of a read loop is, phase by phase. -/
inductive ReadCase (c : Connection) (s s' : Server) : Prop where
  | waiting (since : Nat) (l : Link) (phase : c.reader = .waiting since)
      (link : s.link? c.link = some l) (h : s.readWaiting c l since = some s')
  | offering (e : WorkEvent) (phase : c.reader = .offering e) (h : s.readOffering c e = s')
  | queued (e : WorkEvent) (phase : c.reader = .queued e) (h : s.readQueued c = some s')
  | granted (e : WorkEvent) (phase : c.reader = .granted e) (h : s.readGranted c e = s')
  | leaving (phase : c.reader = .leaving) (h : s.readLeaving c = s')

theorem readCase_of_readAs {c : Connection} {s s' : Server} (h : s.readAs c = some s') :
    ReadCase c s s' := by
  unfold readAs at h
  cases hr : c.reader with
  | waiting since =>
    simp only [hr] at h
    obtain ⟨l, hl, hstep⟩ := Option.bind_eq_some_iff.mp h
    exact .waiting since l hr hl hstep
  | offering e =>
    simp only [hr, Option.some.injEq] at h
    exact .offering e hr h
  | queued e =>
    simp only [hr] at h
    exact .queued e hr h
  | granted e =>
    simp only [hr, Option.some.injEq] at h
    exact .granted e hr h
  | leaving =>
    simp only [hr, Option.some.injEq] at h
    exact .leaving hr h
  | stopped => simp [hr] at h

/-- A write loop that does not leave does nothing that the hub sees. -/
theorem quiet_of_writeAs {c : Connection} (hw : c.writer ≠ .leaving) {s s' : Server}
    (h : s.writeAs c = some s') : Quiet s s' := by
  unfold writeAs at h
  obtain ⟨l, -, hl⟩ := Option.bind_eq_some_iff.mp h
  cases hphase : c.writer with
  | idle =>
    simp only [hphase] at hl
    exact quiet_writeIdle hl
  | sending isText =>
    simp only [hphase] at hl
    exact quiet_writeSending hl
  | closing untilMs =>
    simp only [hphase] at hl
    exact quiet_writeClosing hl
  | leaving => exact absurd hphase hw
  | stopped => simp [hphase] at hl

/-- A step of a write loop gives the connection back to the hub, or the hub does not see it. -/
theorem quiet_or_leaves_of_writeAs {c : Connection} {s s' : Server} (h : s.writeAs c = some s') :
    Quiet s s' ∨ Quiet (s.release c.key c.generation).2 s' := by
  by_cases hw : c.writer = .leaving
  · unfold writeAs at h
    obtain ⟨l, -, hl⟩ := Option.bind_eq_some_iff.mp h
    simp only [hw, Option.some.injEq] at hl
    subst hl
    exact .inr ((quiet_setWriter _ _ _).trans (quiet_afterStop c _))
  · exact .inl (quiet_of_writeAs hw h)

/-! ### The registration of a connection that was upgraded -/

theorem takeUpgrade_eq_some {s t : Server} {key : WorkerKey} {link : Nat}
    (h : s.takeUpgrade link = some (key, t)) :
    (key, link) ∈ s.upgrades ∧ t = { s with upgrades := s.upgrades.erase (key, link) } := by
  obtain ⟨u, hfind, hu⟩ := Option.map_eq_some_iff.mp h
  obtain ⟨rfl, rfl⟩ := Prod.mk.inj hu
  have hlink : u.2 = link := by simpa using List.find?_some hfind
  subst hlink
  exact ⟨List.mem_of_find?_eq_some hfind, rfl⟩

/-- What comes of a connection that waits over a link to be registered. -/
inductive UpgradeCase (link : Nat) (s s' : Server) : Prop where
  /-- It is registered. -/
  | joins (key : WorkerKey) (waits : (key, link) ∈ s.upgrades) (isOpen : s.registry.isOpen = true)
      (h : ({ s with upgrades := s.upgrades.erase (key, link) }.register key link).2 = s')
  /-- The hub is closed. -/
  | refused (key : WorkerKey) (waits : (key, link) ∈ s.upgrades)
      (closed : s.registry.isOpen = false)
      (h : ({ s with upgrades := s.upgrades.erase (key, link) }.dropLink link).note
        (.registrationRefused key) = s')

theorem upgradeCase_of_upgradeStep {link : Nat} {s s' : Server}
    (h : s.upgradeStep link = some s') : UpgradeCase link s s' := by
  unfold upgradeStep at h
  split at h
  · simp at h
  · rename_i key t htake
    obtain ⟨hwaits, rfl⟩ := takeUpgrade_eq_some htake
    cases hopen : s.registry.isOpen with
    | true =>
      have hfst := register_fst (s := { s with upgrades := s.upgrades.erase (key, link) }) hopen
        key link
      split at h <;> rename_i heq <;> rw [heq] at hfst
      · refine .joins key hwaits hopen ?_
        rw [heq]
        exact Option.some.inj h
      · simp at hfst
    | false =>
      rw [register_of_closed (s := { s with upgrades := s.upgrades.erase (key, link) }) hopen] at h
      exact .refused key hwaits hopen (Option.some.inj h)

/-- What comes of it when the upgrade fails. -/
theorem failUpgrade_cases (link : Nat) (s : Server) :
    s.failUpgrade link = s ∨ ∃ key, (key, link) ∈ s.upgrades ∧ s.failUpgrade link =
      ({ s with upgrades := s.upgrades.erase (key, link) }.note (.upgradeFailed key)).dropLink
        link := by
  unfold failUpgrade
  split
  · exact .inl rfl
  · rename_i key t htake
    obtain ⟨hwaits, rfl⟩ := takeUpgrade_eq_some htake
    exact .inr ⟨key, hwaits, rfl⟩

/-- A connection that waited to be registered waits no longer. -/
theorem quiet_withdrawn (u : WorkerKey × Nat) (s : Server) :
    Quiet s { s with upgrades := s.upgrades.erase u } := .of_fields rfl rfl rfl rfl

theorem quiet_failUpgrade (link : Nat) (s : Server) : Quiet s (s.failUpgrade link) := by
  rcases failUpgrade_cases link s with h | ⟨key, -, h⟩
  · rw [h]
    exact .refl s
  · rw [h]
    exact (quiet_withdrawn (key, link) s).trans ((quiet_note _ _).trans (quiet_dropLink link _))

/-- The connection as its loops see it before they notice that they were told to stop. -/
def Connection.unaware (c : Connection) : Connection := { c with stopSignals := 0 }

/-- The connection as its write loop sees it before it notices that a ping is due. -/
def Connection.beforePing (nowMs : Nat) (c : Connection) : Connection :=
  { c with nextPingMs := nowMs + 1 }

/-! ### Actions -/

/-- Something that happens to a running server at one stroke. -/
inductive Action where
  /-- A task takes its next step. -/
  | step (t : Task)
  /-- The read loop of a connection goes on without having noticed that it was told to stop. -/
  | readEarly (generation : Nat)
  /-- The write loop of a connection goes on without having noticed that it was told to stop
  or, if `ping` is false, that a ping is due. -/
  | writeEarly (generation : Nat) (ping : Bool)
  | register (key : WorkerKey) (link : Nat)
  | unregister (key : WorkerKey)
  | close
  | sendTo (key : WorkerKey) (m : ServerMessage)
  | broadcast (m : ServerMessage)
  /-- A connection was upgraded and waits to be registered. -/
  | upgrade (key : WorkerKey) (link : Nat)
  /-- The upgrade of a connection that waits fails. -/
  | failUpgrade (link : Nat)
  /-- A socket is opened. -/
  | connect (l : Link)
  /-- Whatever the worker does to its end of a socket. -/
  | remote (n : Nat) (l : Link)
  /-- The clocks are set. -/
  | clock (c : Clock)
  /-- The order in which tasks will take their turns changes. -/
  | schedule (agenda : List Task)
  /-- Somebody outside takes an event out of the work queue. -/
  | take
  /-- Nobody takes events out any more. -/
  | abandon
  /-- A reward comes from outside. -/
  | reward (r : RewardEvent)
  /-- No more rewards come from outside. -/
  | endRewards

/-- What an action makes of a server. -/
def act : Action → Server → Server
  | .step t, s => (s.step t).getD s
  | .readEarly g, s => ((s.connection? g).bind fun c => s.readAs c.unaware).getD s
  | .writeEarly g ping, s =>
    ((s.connection? g).bind fun c =>
      s.writeAs (if ping then c.unaware else c.unaware.beforePing s.clock.monoMs)).getD s
  | .register key link, s => (s.register key link).2
  | .unregister key, s => (s.unregister key).2
  | .close, s => s.closeHub.2
  | .sendTo key m, s => (s.sendTo key m).2
  | .broadcast m, s => (s.broadcast m).2
  | .upgrade key link, s => { s with upgrades := s.upgrades ++ [(key, link)] }.wake (.upgrade link)
  | .failUpgrade link, s => s.failUpgrade link
  | .connect l, s => (s.addLink l).2
  | .remote n l, s => (s.modifyLink n fun _ => l).wakeLoops n
  | .clock c, s => { s with clock := c }
  | .schedule agenda, s => { s with agenda := agenda }
  | .take, s => (s.takeEvent.map (·.2)).getD s
  | .abandon, s => s.abandonQueue
  | .reward r, s => s.addReward r
  | .endRewards, s => s.endRewards

/-- The server after some actions, the first one first. -/
def after (actions : List Action) (s : Server) : Server := actions.foldl (fun s a => s.act a) s

@[simp] theorem after_nil (s : Server) : s.after [] = s := rfl

@[simp] theorem after_cons (a : Action) (as : List Action) (s : Server) :
    s.after (a :: as) = (s.act a).after as := rfl

theorem after_append (as bs : List Action) (s : Server) :
    s.after (as ++ bs) = (s.after as).after bs := List.foldl_append

/-- What holds at first and is kept by every action holds after any of them. -/
theorem after_induction {P : Server → Prop} (keep : ∀ a s, P s → P (s.act a)) {s : Server}
    (start : P s) (actions : List Action) : P (s.after actions) := by
  induction actions generalizing s with
  | nil => exact start
  | cons a rest ih => exact ih (keep a s start)

/-! ### The schedule is a run -/

theorem exists_turn (t : Task) (fuel : Nat) (s : Server) :
    ∃ actions, (turn t fuel s).2 = s.after actions := by
  induction fuel generalizing s with
  | zero => exact ⟨[], rfl⟩
  | succ fuel ih =>
    cases hs : s.step t with
    | none => exact ⟨[], by rw [turn, hs]; rfl⟩
    | some s' =>
      obtain ⟨actions, hrest⟩ := ih s'
      refine ⟨.step t :: actions, ?_⟩
      rw [turn, hs, after_cons, act, hs]
      exact hrest

theorem exists_runAgenda (fuel turns : Nat) (s : Server) :
    ∃ actions, s.runAgenda fuel turns = s.after actions := by
  induction turns generalizing s with
  | zero => exact ⟨[], rfl⟩
  | succ turns ih =>
    cases ha : s.agenda with
    | nil => exact ⟨[], by rw [runAgenda, ha]; rfl⟩
    | cons t rest =>
      obtain ⟨first, hfirst⟩ := exists_turn t fuel { s with agenda := rest }
      obtain ⟨others, hothers⟩ := ih (turn t fuel { s with agenda := rest }).2
      refine ⟨.schedule rest :: (first ++ others), ?_⟩
      rw [runAgenda, ha, after_cons, after_append, act, ← hfirst]
      exact hothers

theorem exists_settle (s : Server) : ∃ actions, s.settle = s.after actions :=
  exists_runAgenda s.enough s.enough s

/-- Tasks that are woken are only put on the agenda. -/
theorem exists_wakeAll (ts : List Task) (s : Server) :
    ∃ agenda, s.wakeAll ts = { s with agenda := agenda } := by
  unfold wakeAll
  induction ts generalizing s with
  | nil => exact ⟨s.agenda, rfl⟩
  | cons t rest ih =>
    obtain ⟨agenda, hrest⟩ := ih (s.wake t)
    refine ⟨agenda, ?_⟩
    rw [List.foldl_cons, hrest]
    unfold wake
    split <;> rfl

theorem exists_moveTo (ms : Nat) (s : Server) : ∃ actions, s.moveTo ms = s.after actions := by
  obtain ⟨agenda, h⟩ := exists_wakeAll ((s.pending.filter (·.1 ≤ ms)).map (·.2))
    { s with clock := s.clock.setMonoMs ms }
  exact ⟨[.clock (s.clock.setMonoMs ms), .schedule agenda], h⟩

theorem exists_advanceTo (target fuel : Nat) (s : Server) :
    ∃ actions, s.advanceTo target fuel = s.after actions := by
  induction fuel generalizing s with
  | zero => exact exists_moveTo target s
  | succ fuel ih =>
    unfold advanceTo
    split
    · rename_i t _
      split
      · obtain ⟨first, hfirst⟩ := exists_moveTo t s
        obtain ⟨second, hsecond⟩ := exists_settle (s.moveTo t)
        obtain ⟨others, hothers⟩ := ih (s.moveTo t).settle
        refine ⟨first ++ second ++ others, ?_⟩
        rw [after_append, after_append, ← hfirst, ← hsecond, hothers]
      · exact exists_moveTo target s
    · exact exists_moveTo target s

theorem exists_advance (ms : Nat) (s : Server) : ∃ actions, s.advance ms = s.after actions := by
  obtain ⟨first, hfirst⟩ := exists_advanceTo (s.clock.monoMs + ms) ms s
  obtain ⟨others, hothers⟩ := exists_settle (s.advanceTo (s.clock.monoMs + ms) ms)
  refine ⟨first ++ others, ?_⟩
  rw [after_append, ← hfirst]
  exact hothers

/-! ### What the hub sees of an action

`Action.hubOp?` names the operation that an action is, or that a loop carries out in it: a loop
that leaves lets go of its key, and a connection that was upgraded is registered.  There is one
at most, and `sameHub_act` says that the hub sees nothing else of the action.
-/

/-- What the read loop of a connection asks of the hub in its next step. -/
def Connection.readerOp? (c : Connection) : Option HubOp :=
  if c.reader = .leaving then some (.release c.key c.generation) else none

/-- What its write loop asks of the hub. -/
def Connection.writerOp? (c : Connection) : Option HubOp :=
  if c.writer = .leaving then some (.release c.key c.generation) else none

/-- What the read loop with a number asks of the hub. -/
def readerOp? (g : Nat) (s : Server) : Option HubOp :=
  (s.connection? g).bind Connection.readerOp?

/-- What the write loop with a number asks of the hub. -/
def writerOp? (g : Nat) (s : Server) : Option HubOp :=
  (s.connection? g).bind fun c => (s.link? c.link).bind fun _ => c.writerOp?

/-- The operation of the hub in an action. -/
def Action.hubOp? (s : Server) : Action → Option HubOp
  | .register key link => some (.register key link)
  | .unregister key => some (.unregister key)
  | .close => some .close
  | .step (.upgrade link) => (s.takeUpgrade link).map fun u => .register u.1 link
  | .step (.reader g) => s.readerOp? g
  | .readEarly g => s.readerOp? g
  | .step (.writer g) => s.writerOp? g
  | .writeEarly g _ => s.writerOp? g
  | _ => none

/-- The server after an operation of the hub, if there is one. -/
def afterOp (o : Option HubOp) (s : Server) : Server := o.elim s fun o => (o.run s).2

@[simp] theorem afterOp_none (s : Server) : s.afterOp none = s := rfl

theorem afterOp_register (key : WorkerKey) (link : Nat) (s : Server) :
    s.afterOp (some (.register key link)) = (s.register key link).2 := by
  simp only [afterOp, Option.elim_some, HubOp.run]
  split <;> rename_i heq <;> rw [heq]

/-- A step that is there or not. -/
theorem getD_of_forall {P : Server → Prop} {s : Server} {o : Option Server} (hs : P s)
    (ho : ∀ s', o = some s' → P s') : P (o.getD s) := by
  cases o with
  | none => exact hs
  | some s' => exact ho s' rfl

theorem sameHub_readAs (c : Connection) (s : Server) :
    SameHub (s.afterOp c.readerOp?) ((s.readAs c).getD s) := by
  by_cases hr : c.reader = .leaving
  · have hleaves : s.readAs c = some (s.readLeaving c) := by simp [readAs, hr]
    rw [Connection.readerOp?, if_pos hr, hleaves]
    have hreader : SameHub (s.release c.key c.generation).2 _ :=
      sameHub_setReader c.generation .stopped _
    exact hreader.trans (quiet_readLeaving c s).sameHub
  · rw [Connection.readerOp?, if_neg hr]
    refine getD_of_forall (.refl s) fun s' hs => ?_
    cases readCase_of_readAs hs with
    | waiting since l _ _ hstep => exact sameHub_readWaiting hstep
    | offering e _ hstep => exact hstep ▸ sameHub_readOffering c e s
    | queued e _ hstep => exact sameHub_readQueued hstep
    | granted e _ hstep => exact hstep ▸ sameHub_readGranted c e s
    | leaving phase _ => exact absurd phase hr

/-- The steps of a read loop, as `v` shows it its connection. -/
theorem sameHub_reader {v : Connection → Connection}
    (h : ∀ c, (v c).readerOp? = c.readerOp?) (g : Nat) (s : Server) :
    SameHub (s.afterOp (s.readerOp? g)) (((s.connection? g).bind fun c => s.readAs (v c)).getD s) := by
  unfold readerOp?
  cases s.connection? g with
  | none => exact .refl s
  | some c =>
    have hread := sameHub_readAs (v c) s
    rw [h] at hread
    exact hread

theorem sameHub_writeAs {c : Connection} {l : Link} {s : Server} (link : s.link? c.link = some l) :
    SameHub (s.afterOp c.writerOp?) ((s.writeAs c).getD s) := by
  by_cases hw : c.writer = .leaving
  · have hleaves : s.writeAs c = some (s.writeLeaving c) := by simp [writeAs, link, hw]
    rw [Connection.writerOp?, if_pos hw, hleaves]
    exact ((quiet_setWriter _ _ _).trans (quiet_afterStop c _)).sameHub
  · rw [Connection.writerOp?, if_neg hw]
    exact getD_of_forall (.refl s) fun s' hs => (quiet_of_writeAs hw hs).sameHub

/-- What holds of the steps of every write loop holds of one that is named by its number; `v` is
how it sees its connection. -/
theorem writer_of_writeAs {R : Server → Server → Prop} {v : Connection → Connection} {s : Server}
    (hlink : ∀ c, (v c).link = c.link) (hop : ∀ c, (v c).writerOp? = c.writerOp?) (idle : R s s)
    (h : ∀ c l, s.link? c.link = some l → R (s.afterOp c.writerOp?) ((s.writeAs c).getD s))
    (g : Nat) :
    R (s.afterOp (s.writerOp? g)) (((s.connection? g).bind fun c => s.writeAs (v c)).getD s) := by
  unfold writerOp?
  cases s.connection? g with
  | none => exact idle
  | some c =>
    cases hl : s.link? c.link with
    | none =>
      have hnone : s.writeAs (v c) = none := by simp [writeAs, hlink, hl]
      simp only [Option.bind_some, hl, hnone]
      exact idle
    | some l =>
      have hwrite := h (v c) l (by rw [hlink, hl])
      rw [hop] at hwrite
      simpa only [Option.bind_some, hl] using hwrite

theorem sameHub_takeEvent {e : WorkEvent} {s s' : Server} (h : s.takeEvent = some (e, s')) :
    SameHub s s' := by
  obtain ⟨p, -, hp⟩ := Option.map_eq_some_iff.mp h
  obtain ⟨-, rfl⟩ := Prod.mk.inj hp
  exact (sameHub_of_queue _ s).trans (sameHub_grantSlot _ _)

theorem sameHub_aggregateStep {s s' : Server} (h : s.aggregateStep = some s') : SameHub s s' := by
  unfold aggregateStep at h
  split at h
  · split at h
    · rename_i e t htake
      obtain rfl := Option.some.inj h
      exact (sameHub_takeEvent htake).trans (quiet_processEvent e t).sameHub
    · split at h
      · obtain rfl := Option.some.inj h
        have hstop : SameHub s ({ s with aggregator := some .stopped }.dropRewardSender .consumer) :=
          ⟨rfl, rfl⟩
        exact hstop.trans (quiet_wake _ _).sameHub
      · simp at h
  · simp at h

/-- What a registration does to the hub depends on the hub alone. -/
theorem SameHub.register {s t : Server} (h : SameHub s t) (key : WorkerKey) (link : Nat) :
    SameHub (s.register key link).2 (t.register key link).2 := by
  cases hopen : s.registry.isOpen with
  | false =>
    have hclosed : t.registry.isOpen = false := h.registry ▸ hopen
    rw [register_of_closed hopen, register_of_closed hclosed]
    exact (quiet_dropLink link s).sameHub.symm.trans (h.trans (quiet_dropLink link t).sameHub)
  | true =>
    have hopen' : t.registry.isOpen = true := h.registry ▸ hopen
    refine ⟨?_, ?_⟩
    · rw [registry_register hopen, registry_register hopen', h.registry]
    · rw [standings_register hopen, standings_register hopen', h.registry, h.standings]

theorem sameHub_upgradeStep (link : Nat) (s : Server) :
    SameHub (s.afterOp (Action.hubOp? s (.step (.upgrade link))))
      ((s.upgradeStep link).getD s) := by
  have hop : Action.hubOp? s (.step (.upgrade link)) =
      (s.takeUpgrade link).map fun u => .register u.1 link := rfl
  rw [hop, upgradeStep]
  cases htake : s.takeUpgrade link with
  | none => exact .refl s
  | some u =>
    obtain ⟨-, hu⟩ := takeUpgrade_eq_some htake
    have hleft : SameHub s u.2 := by
      rw [hu]
      exact (quiet_withdrawn _ s).sameHub
    have hreg := hleft.register u.1 link
    rw [Option.map_some, afterOp_register]
    dsimp only
    split <;> rename_i heq <;> rw [heq] at hreg
    · exact hreg
    · exact hreg.trans (quiet_note _ _).sameHub

/-- **The hub sees one of its operations of an action, or nothing.** -/
theorem sameHub_act (a : Action) (s : Server) : SameHub (s.afterOp (a.hubOp? s)) (s.act a) := by
  cases a with
  | step t =>
    cases t with
    | reader g =>
      have h := sameHub_reader (v := id) (fun _ => rfl) g s
      rwa [act, Server.step, readStep_eq]
    | writer g =>
      have h := writer_of_writeAs (v := id) (fun _ => rfl) (fun _ => rfl) (SameHub.refl s)
        (fun _ _ => sameHub_writeAs) g
      rwa [act, Server.step, writeStep_eq]
    | peer n => exact getD_of_forall (.refl s) fun _ hs => (quiet_peerStep hs).sameHub
    | upgrade link => exact sameHub_upgradeStep link s
    | aggregator => exact getD_of_forall (.refl s) fun _ hs => sameHub_aggregateStep hs
    | notifier => exact getD_of_forall (.refl s) fun _ hs => (quiet_notifyStep hs).sameHub
  | readEarly g => exact sameHub_reader (v := Connection.unaware) (fun _ => rfl) g s
  | writeEarly g ping =>
    refine writer_of_writeAs ?_ ?_ (SameHub.refl s) (fun _ _ => sameHub_writeAs) g <;>
      intro c <;> cases ping <;> rfl
  | register key link =>
    rw [Action.hubOp?, afterOp_register]
    exact .refl _
  | unregister key => exact .refl _
  | close => exact .refl _
  | sendTo key m => exact (quiet_sendTo key m s).sameHub
  | broadcast m => exact (quiet_broadcast m s).sameHub
  | upgrade key link =>
    have hadd : SameHub s { s with upgrades := s.upgrades ++ [(key, link)] } := ⟨rfl, rfl⟩
    exact hadd.trans (quiet_wake _ _).sameHub
  | failUpgrade link => exact (quiet_failUpgrade link s).sameHub
  | connect l => exact ⟨rfl, rfl⟩
  | remote n l => exact ((quiet_modifyLink n _ s).trans (quiet_wakeLoops n _)).sameHub
  | clock c => exact ⟨rfl, rfl⟩
  | schedule agenda => exact ⟨rfl, rfl⟩
  | take =>
    refine getD_of_forall (.refl s) fun s' hs => ?_
    obtain ⟨⟨e, s''⟩, htake, rfl⟩ := Option.map_eq_some_iff.mp hs
    exact sameHub_takeEvent htake
  | abandon => exact (sameHub_of_queue _ s).trans (quiet_wakeAll _ _).sameHub
  | reward r =>
    have hadd : SameHub s { s with rewards := s.rewards ++ [r] } := ⟨rfl, rfl⟩
    exact hadd.trans (quiet_wake _ _).sameHub
  | endRewards =>
    exact ((quiet_dropRewardSender _ s).trans (quiet_wake _ _)).sameHub

/-! ### What the hub sees of a run -/

/-- What the hub answers in an action. -/
def Action.hubEvent? (s : Server) (a : Action) : Option HubEvent :=
  (a.hubOp? s).map fun o => (o.run s).1

/-- What the hub answers in a run, the first answer first. -/
def hubLog : List Action → Server → List HubEvent
  | [], _ => []
  | a :: rest, s => (a.hubEvent? s).toList ++ hubLog rest (s.act a)

theorem HubRun.act {log : List HubEvent} {s : Server} (h : HubRun log s) (a : Action) :
    HubRun (log ++ (a.hubEvent? s).toList) (s.act a) := by
  have hsame := sameHub_act a s
  unfold Action.hubEvent?
  cases ho : a.hubOp? s with
  | none =>
    rw [ho] at hsame
    simpa using h.between hsame
  | some o =>
    rw [ho] at hsame
    exact (h.op o).between hsame

/-- The history of a run is that of what came before it, and then what the hub answers in it. -/
theorem HubRun.after {log : List HubEvent} {s : Server} (h : HubRun log s)
    (actions : List Action) : HubRun (log ++ hubLog actions s) (s.after actions) := by
  induction actions generalizing log s with
  | nil => simpa [hubLog] using h
  | cons a rest ih =>
    rw [hubLog, ← List.append_assoc]
    exact ih (h.act a)

/-- The server `s` is reached by operations of the hub. -/
def Hosted (s : Server) : Prop := ∃ log, HubRun log s

theorem Hosted.between {s s' : Server} (h : Hosted s) (hs : SameHub s s') : Hosted s' := by
  obtain ⟨log, hrun⟩ := h
  exact ⟨log, hrun.between hs⟩

theorem Hosted.tended {s : Server} (h : Hosted s) : Tended s.registry s.standings := by
  obtain ⟨log, hrun⟩ := h
  exact hrun.recorded.tended

theorem hosted_act (a : Action) {s : Server} (h : Hosted s) : Hosted (s.act a) := by
  obtain ⟨log, hrun⟩ := h
  exact ⟨_, hrun.act a⟩

/-- **To the hub a run is a sequence of its operations.**  Whatever happens to a server
before anything was registered, the hub has a history of it. -/
theorem hosted_after {s : Server} (hr : s.registry = {}) (hc : s.connections = [])
    (actions : List Action) : Hosted (s.after actions) :=
  after_induction (fun a _ h => hosted_act a h) ⟨[], .start hr hc⟩ actions

/-- What every action keeps in a server that is reached by operations of the hub. -/
theorem Hosted.after_induction {P : Server → Prop} {s : Server} (hosted : Hosted s)
    (keep : ∀ a t, Hosted t → P t → P (t.act a)) (start : P s) (actions : List Action) :
    P (s.after actions) := by
  have hboth : Hosted (s.after actions) ∧ P (s.after actions) :=
    Server.after_induction (P := fun t => Hosted t ∧ P t)
      (fun a t h => ⟨hosted_act a h.1, keep a t h.1 h.2⟩) ⟨hosted, start⟩ actions
  exact hboth.2

end Foreman.Server
