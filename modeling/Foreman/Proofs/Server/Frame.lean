/-
What an operation leaves alone.

The hub looks at nothing of a connection but its `Standing`, and the work queue is
fed by read loops of which nothing matters but their `Reading`.  Most of what a
server does touches neither: `SameHub` and `SameIntake` say so, `Quiet` is both,
and every operation that is one of them has its lemma here.  What is left, the
registry's operations and the steps of the read loops and the aggregator, is what
the files on the registry and on the intake are about.
-/
import Foreman.Server.Pipeline

namespace Foreman.Server

/-! ### What the hub sees -/

/-- What the hub knows of a connection: its key, its number, and how often it was told to
stop. -/
structure Standing where
  key : WorkerKey
  generation : Nat
  stopSignals : Nat
deriving DecidableEq

/-- The standing of a connection. -/
def Connection.standing (c : Connection) : Standing := ⟨c.key, c.generation, c.stopSignals⟩

/-- The standings of all connections that were ever registered. -/
def standings (s : Server) : List Standing := s.connections.map Connection.standing

/-- Nothing that the hub knows has changed. -/
structure SameHub (s s' : Server) : Prop where
  registry : s'.registry = s.registry
  standings : s'.standings = s.standings

theorem SameHub.refl (s : Server) : SameHub s s := ⟨rfl, rfl⟩

theorem SameHub.trans {s₁ s₂ s₃ : Server} (h₁ : SameHub s₁ s₂) (h₂ : SameHub s₂ s₃) :
    SameHub s₁ s₃ :=
  ⟨h₂.registry.trans h₁.registry, h₂.standings.trans h₁.standings⟩

theorem SameHub.symm {s s' : Server} (h : SameHub s s') : SameHub s' s :=
  ⟨h.registry.symm, h.standings.symm⟩

/-! ### What the work queue sees -/

/-- The event that a read loop has in hand, if it has one. -/
def Reader.held : Reader → List WorkEvent
  | offering e => [e]
  | queued e => [e]
  | granted e => [e]
  | _ => []

/-- The read loop has not come to its end. -/
def Reader.isRunning : Reader → Bool
  | leaving => false
  | stopped => false
  | _ => true

/-- A slot of the work queue is held for the read loop. -/
def Reader.isGranted : Reader → Bool
  | granted _ => true
  | _ => false

/-- What matters of a connection to the events that come from it: whose they are, which one
its read loop has in hand, and whether there may be more. -/
structure Reading where
  key : WorkerKey
  generation : Nat
  held : List WorkEvent
  running : Bool
deriving DecidableEq

/-- The reading of a connection. -/
def Connection.reading (c : Connection) : Reading :=
  ⟨c.key, c.generation, c.reader.held, c.reader.isRunning⟩

/-- The readings of all connections that were ever registered. -/
def readings (s : Server) : List Reading := s.connections.map Connection.reading

/-- The number of read loops for which a slot is held. -/
def grants (s : Server) : Nat := s.connections.countP (·.reader.isGranted)

/-- Nothing has changed on the way from the read loops into the work queue. -/
structure SameIntake (s s' : Server) : Prop where
  hub : s'.hub = s.hub
  queue : s'.queue = s.queue
  readings : s'.readings = s.readings
  grants : s'.grants = s.grants

theorem SameIntake.refl (s : Server) : SameIntake s s := ⟨rfl, rfl, rfl, rfl⟩

theorem SameIntake.trans {s₁ s₂ s₃ : Server} (h₁ : SameIntake s₁ s₂) (h₂ : SameIntake s₂ s₃) :
    SameIntake s₁ s₃ :=
  ⟨h₂.hub.trans h₁.hub, h₂.queue.trans h₁.queue, h₂.readings.trans h₁.readings,
    h₂.grants.trans h₁.grants⟩

/-- Neither the hub nor the work queue sees a change. -/
structure Quiet (s s' : Server) : Prop where
  sameHub : SameHub s s'
  sameIntake : SameIntake s s'

theorem Quiet.refl (s : Server) : Quiet s s := ⟨.refl s, .refl s⟩

theorem Quiet.trans {s₁ s₂ s₃ : Server} (h₁ : Quiet s₁ s₂) (h₂ : Quiet s₂ s₃) : Quiet s₁ s₃ :=
  ⟨h₁.sameHub.trans h₂.sameHub, h₁.sameIntake.trans h₂.sameIntake⟩

/-- What leaves these five fields alone is quiet. -/
theorem Quiet.of_fields {s s' : Server} (hub : s'.hub = s.hub) (registry : s'.registry = s.registry)
    (queue : s'.queue = s.queue) (connections : s'.connections = s.connections) : Quiet s s' :=
  ⟨⟨registry, by simp only [standings, connections]⟩,
    ⟨hub, queue, by simp only [readings, connections], by simp only [grants, connections]⟩⟩

/-! ### Changing one connection -/

theorem map_modifyConnection {α : Type} {f : Connection → Connection} (v : Connection → α)
    (h : ∀ c, v (f c) = v c) (g : Nat) (s : Server) :
    (s.modifyConnection g f).connections.map v = s.connections.map v := by
  simp only [modifyConnection, List.map_map]
  refine List.map_congr_left fun c _ => ?_
  simp only [Function.comp]
  split
  · exact h c
  · rfl

theorem countP_modifyConnection {f : Connection → Connection} {p : Connection → Bool}
    (h : ∀ c, p (f c) = p c) (g : Nat) (s : Server) :
    (s.modifyConnection g f).connections.countP p = s.connections.countP p := by
  have hmap := map_modifyConnection p h g s
  rw [← Function.id_comp p, ← List.countP_map, hmap, List.countP_map]

theorem sameHub_modifyConnection {f : Connection → Connection}
    (h : ∀ c, (f c).standing = c.standing) (g : Nat) (s : Server) :
    SameHub s (s.modifyConnection g f) :=
  ⟨rfl, map_modifyConnection _ h g s⟩

theorem sameIntake_modifyConnection {f : Connection → Connection}
    (hr : ∀ c, (f c).reading = c.reading)
    (hg : ∀ c, (f c).reader.isGranted = c.reader.isGranted) (g : Nat) (s : Server) :
    SameIntake s (s.modifyConnection g f) :=
  ⟨rfl, rfl, map_modifyConnection _ hr g s, countP_modifyConnection hg g s⟩

/-- A change to a connection that keeps its key, its number, its signals and its read loop. -/
theorem quiet_modifyConnection {f : Connection → Connection} (hs : ∀ c, (f c).standing = c.standing)
    (hr : ∀ c, (f c).reader = c.reader) (g : Nat) (s : Server) :
    Quiet s (s.modifyConnection g f) := by
  refine ⟨sameHub_modifyConnection hs g s, sameIntake_modifyConnection ?_ ?_ g s⟩
  · intro c
    have hkey : (f c).key = c.key := congrArg Standing.key (hs c)
    have hgen : (f c).generation = c.generation := congrArg Standing.generation (hs c)
    simp only [Connection.reading, hkey, hgen, hr]
  · intro c
    rw [hr]

/-! ### Bookkeeping -/

theorem quiet_wake (t : Task) (s : Server) : Quiet s (s.wake t) := by
  unfold wake
  split <;> exact .of_fields rfl rfl rfl rfl

theorem quiet_wakeAll (ts : List Task) (s : Server) : Quiet s (s.wakeAll ts) := by
  unfold wakeAll
  induction ts generalizing s with
  | nil => exact .refl s
  | cons t rest ih => exact (quiet_wake t s).trans (ih (s.wake t))

theorem quiet_bump (m : Metric) (s : Server) : Quiet s (s.bump m) := .of_fields rfl rfl rfl rfl

theorem quiet_note (n : Notice) (s : Server) : Quiet s (s.note n) := .of_fields rfl rfl rfl rfl

theorem quiet_showConnected (s : Server) : Quiet s s.showConnected := .of_fields rfl rfl rfl rfl

theorem quiet_dropWorkSender (x : Sender) (s : Server) : Quiet s (s.dropWorkSender x) :=
  .of_fields rfl rfl rfl rfl

theorem quiet_dropRewardSender (x : Sender) (s : Server) : Quiet s (s.dropRewardSender x) :=
  .of_fields rfl rfl rfl rfl

theorem quiet_modifyLink (n : Nat) (f : Link → Link) (s : Server) : Quiet s (s.modifyLink n f) :=
  .of_fields rfl rfl rfl rfl

theorem quiet_dropLink (n : Nat) (s : Server) : Quiet s (s.dropLink n) :=
  (quiet_modifyLink n _ s).trans (quiet_wake _ _)

theorem quiet_afterStop (c : Connection) (s : Server) : Quiet s (s.afterStop c) := by
  unfold afterStop
  split
  · split
    · exact quiet_dropLink _ s
    · exact .refl s
  · exact .refl s

theorem quiet_wakeLoops (link : Nat) (s : Server) : Quiet s (s.wakeLoops link) := by
  unfold wakeLoops
  split
  · exact quiet_wakeAll _ s
  · exact .refl s

/-- A read loop that leaves releases its connection and stops, and what else it does is quiet. -/
theorem quiet_readLeaving (c : Connection) (s : Server) :
    Quiet ((s.release c.key c.generation).2.setReader c.generation .stopped) (s.readLeaving c) :=
  ((quiet_dropWorkSender _ _).trans (quiet_afterStop c _)).trans (quiet_wake .aggregator _)

/-! ### Telling connections to stop

A signal changes standings but is no matter to the work queue.
-/

theorem sameIntake_tellStop (g : Nat) (s : Server) : SameIntake s (s.tellStop g) := by
  unfold tellStop
  refine SameIntake.trans ?_ (quiet_wakeAll _ _).sameIntake
  refine sameIntake_modifyConnection ?_ ?_ g s <;> exact fun _ => rfl

theorem sameIntake_tellStopAll (gs : List Nat) (s : Server) : SameIntake s (s.tellStopAll gs) := by
  unfold tellStopAll
  induction gs generalizing s with
  | nil => exact .refl s
  | cons g rest ih => exact (sameIntake_tellStop g s).trans (ih (s.tellStop g))

theorem sameIntake_of_registry (r : Registry) (s : Server) :
    SameIntake s { s with registry := r } := ⟨rfl, rfl, rfl, rfl⟩

theorem sameIntake_unregister (key : WorkerKey) (s : Server) :
    SameIntake s (s.unregister key).2 := by
  unfold unregister
  split
  · exact .refl s
  · rename_i g r _
    exact ((sameIntake_of_registry r s).trans (sameIntake_tellStop g _)).trans
      (quiet_showConnected _).sameIntake

theorem sameIntake_release (key : WorkerKey) (g : Nat) (s : Server) :
    SameIntake s (s.release key g).2 := by
  unfold release
  split
  · exact .refl s
  · rename_i r _
    exact ((sameIntake_of_registry r s).trans (sameIntake_tellStop g _)).trans
      (quiet_showConnected _).sameIntake

theorem sameIntake_closeHub (s : Server) : SameIntake s s.closeHub.2 :=
  ((((sameIntake_of_registry _ s).trans (quiet_dropWorkSender _ _).sameIntake).trans
    (sameIntake_tellStopAll _ _)).trans (quiet_showConnected _).sameIntake).trans
    (quiet_wake _ _).sameIntake

/-! ### The write loop

All of it is quiet but the last step, which releases the connection.
-/

theorem quiet_setWriter (g : Nat) (w : Writer) (s : Server) : Quiet s (s.setWriter g w) := by
  unfold setWriter
  refine quiet_modifyConnection ?_ ?_ g s <;> exact fun _ => rfl

theorem quiet_writeFrame (c : Connection) (f : Frame) (s : Server) : Quiet s (s.writeFrame c f) :=
  (quiet_modifyLink c.link _ s).trans (quiet_wake _ _)

theorem quiet_beginClose (c : Connection) (l : Link) (s : Server) : Quiet s (s.beginClose c l) := by
  unfold beginClose
  split
  · exact quiet_setWriter _ _ s
  · exact (quiet_writeFrame c .close s).trans (quiet_setWriter _ _ _)

theorem quiet_writeFailed (c : Connection) (isText : Bool) (s : Server) :
    Quiet s (s.writeFailed c isText) := by
  unfold writeFailed
  split
  · exact (quiet_bump _ s).trans (quiet_setWriter _ _ _)
  · exact quiet_setWriter _ _ s

theorem quiet_send (c : Connection) (l : Link) (f : Frame) (isText : Bool) (s : Server) :
    Quiet s (s.send c l f isText) := by
  unfold send
  split
  · exact quiet_writeFailed c isText s
  · exact (quiet_writeFrame c f s).trans (quiet_setWriter _ _ _)

theorem quiet_sendPing (c : Connection) (l : Link) (s : Server) : Quiet s (s.sendPing c l) := by
  unfold sendPing
  refine Quiet.trans ?_ (quiet_send c l _ false _)
  refine quiet_modifyConnection ?_ ?_ _ s <;> exact fun _ => rfl

theorem quiet_sendMessage (c : Connection) (l : Link) (m : ServerMessage) (s : Server) :
    Quiet s (s.sendMessage c l m) := by
  unfold sendMessage
  split
  · exact quiet_send c l _ true s
  · exact quiet_note _ s

theorem quiet_writeIdle {c : Connection} {l : Link} {s s' : Server}
    (h : s.writeIdle c l = some s') : Quiet s s' := by
  unfold writeIdle at h
  split at h
  · obtain rfl := Option.some.inj h
    exact quiet_beginClose c l s
  · split at h
    · obtain rfl := Option.some.inj h
      exact quiet_sendPing c l s
    · split at h
      · obtain rfl := Option.some.inj h
        refine Quiet.trans ?_ (quiet_sendMessage c l _ _)
        refine quiet_modifyConnection ?_ ?_ _ s <;> exact fun _ => rfl
      · simp at h

theorem quiet_writeSending {c : Connection} {l : Link} {isText : Bool} {s s' : Server}
    (h : s.writeSending c l isText = some s') : Quiet s s' := by
  unfold writeSending at h
  split at h
  · obtain rfl := Option.some.inj h
    exact quiet_writeFailed c isText s
  · split at h
    · simp at h
    · obtain rfl := Option.some.inj h
      split
      · exact (quiet_bump _ s).trans (quiet_setWriter _ _ _)
      · exact quiet_setWriter _ _ s

theorem quiet_writeClosing {c : Connection} {l : Link} {untilMs : Nat} {s s' : Server}
    (h : s.writeClosing c l untilMs = some s') : Quiet s s' := by
  unfold writeClosing at h
  split at h
  · simp at h
  · obtain rfl := Option.some.inj h
    exact quiet_setWriter _ _ s

/-! ### The read loop

What it reads and offers is its own business; the hub hears of it only when it
lets go of its connection.
-/

theorem sameHub_setReader (g : Nat) (r : Reader) (s : Server) : SameHub s (s.setReader g r) := by
  unfold setReader
  refine sameHub_modifyConnection ?_ g s
  exact fun _ => rfl

theorem sameHub_of_queue (q : WorkQueue) (s : Server) : SameHub s { s with queue := q } :=
  ⟨rfl, rfl⟩

theorem sameHub_readOn (g : Nat) (s : Server) : SameHub s (s.readOn g) := sameHub_setReader g _ s

theorem sameHub_pushEvent (c : Connection) (e : WorkEvent) (s : Server) :
    SameHub s (s.pushEvent c e) :=
  ((sameHub_of_queue _ s).trans (quiet_wake _ _).sameHub).trans (sameHub_readOn _ _)

theorem sameHub_grantSlot (next : Option Nat) (s : Server) : SameHub s (s.grantSlot next) := by
  unfold grantSlot
  split
  · exact .refl s
  · refine SameHub.trans (sameHub_modifyConnection ?_ _ s) (quiet_wake _ _).sameHub
    intro c
    split <;> rfl

theorem sameHub_returnSlot (s : Server) : SameHub s s.returnSlot :=
  (sameHub_of_queue _ s).trans (sameHub_grantSlot _ _)

theorem sameHub_readText (c : Connection) (text : String) (s : Server) :
    SameHub s (s.readText c text) := by
  unfold readText
  refine (quiet_bump .framesIn s).sameHub.trans ?_
  dsimp only
  split
  · exact sameHub_setReader _ _ _
  · exact (quiet_bump .framesRejected _).sameHub.trans (sameHub_readOn _ _)

theorem sameHub_readFrame (c : Connection) (f : Frame) (s : Server) :
    SameHub s (s.readFrame c f) := by
  unfold readFrame
  split
  · exact sameHub_readText c _ s
  · exact (quiet_bump .framesRejected s).sameHub.trans (sameHub_readOn _ _)
  · exact ((quiet_modifyLink _ _ s).trans (quiet_wake _ _)).sameHub.trans (sameHub_readOn _ _)
  · exact sameHub_readOn _ s
  · exact sameHub_setReader _ _ s

theorem sameHub_readWaiting {c : Connection} {l : Link} {since : Nat} {s s' : Server}
    (h : s.readWaiting c l since = some s') : SameHub s s' := by
  unfold readWaiting at h
  split at h
  · obtain rfl := Option.some.inj h
    exact sameHub_setReader _ _ s
  · split at h
    · obtain rfl := Option.some.inj h
      exact (quiet_modifyLink _ _ s).sameHub.trans (sameHub_readFrame c _ _)
    · split at h
      · obtain rfl := Option.some.inj h
        exact (quiet_bump _ s).sameHub.trans (sameHub_setReader _ _ _)
      · split at h
        · obtain rfl := Option.some.inj h
          exact (quiet_bump _ s).sameHub.trans (sameHub_setReader _ _ _)
        · simp at h

theorem sameHub_readOffering (c : Connection) (e : WorkEvent) (s : Server) :
    SameHub s (s.readOffering c e) := by
  unfold readOffering
  split
  · exact sameHub_setReader _ _ s
  · split
    · exact (sameHub_of_queue _ s).trans (sameHub_pushEvent c e _)
    · exact (sameHub_of_queue _ s).trans (sameHub_setReader _ _ _)

theorem sameHub_readQueued {c : Connection} {s s' : Server} (h : s.readQueued c = some s') :
    SameHub s s' := by
  unfold readQueued at h
  split at h
  · obtain rfl := Option.some.inj h
    exact (sameHub_of_queue _ s).trans (sameHub_setReader _ _ _)
  · simp at h

theorem sameHub_readGranted (c : Connection) (e : WorkEvent) (s : Server) :
    SameHub s (s.readGranted c e) := by
  unfold readGranted
  split
  · exact (sameHub_returnSlot s).trans (sameHub_setReader _ _ _)
  · exact sameHub_pushEvent c e s

/-! ### Messages and rewards -/

theorem quiet_offer (g : Nat) (m : ServerMessage) (s : Server) : Quiet s (s.offer g m).2 := by
  unfold offer
  split
  · exact .refl s
  · split
    · refine Quiet.trans ?_ (quiet_wake _ _)
      refine quiet_modifyConnection ?_ ?_ g s <;> exact fun _ => rfl
    · exact .refl s

theorem quiet_sendTo (key : WorkerKey) (m : ServerMessage) (s : Server) :
    Quiet s (s.sendTo key m).2 := by
  unfold sendTo
  split
  · exact .refl s
  · rename_i g _
    have h := quiet_offer g m s
    split <;> rename_i s' heq <;> rw [heq] at h
    · exact h
    · exact h.trans (quiet_bump _ s')
    · exact h

theorem quiet_offerAll (m : ServerMessage) (gs : List Nat) (b : Broadcast) (s : Server) :
    Quiet s (offerAll m gs b s).2 := by
  induction gs generalizing b s with
  | nil => exact .refl s
  | cons g rest ih => exact (quiet_offer g m s).trans (ih _ _)

theorem quiet_broadcast (m : ServerMessage) (s : Server) : Quiet s (s.broadcast m).2 := by
  have h := quiet_offerAll m (s.registry.live.map (·.2)) {} s
  unfold broadcast
  dsimp only
  split
  · exact h
  · exact h.trans (.of_fields rfl rfl rfl rfl)

theorem quiet_deliver (r : RewardEvent) (s : Server) : Quiet s (s.deliver r) := by
  have h := quiet_sendTo r.target r.payload s
  unfold deliver
  split <;> rename_i s' heq <;> rw [heq] at h <;> exact h.trans (quiet_bump _ s')

theorem quiet_notifyStep {s s' : Server} (h : s.notifyStep = some s') : Quiet s s' := by
  unfold notifyStep at h
  split at h
  · split at h
    · rename_i r rest _
      obtain rfl := Option.some.inj h
      have htake : Quiet s { s with rewards := rest } := .of_fields rfl rfl rfl rfl
      exact htake.trans (quiet_deliver r _)
    · split at h
      · obtain rfl := Option.some.inj h
        exact .of_fields rfl rfl rfl rfl
      · simp at h
  · simp at h

theorem quiet_recordEvent (e : WorkEvent) (s : Server) : Quiet s (s.recordEvent e).2 := by
  unfold recordEvent
  split <;> exact .of_fields rfl rfl rfl rfl

theorem quiet_rewardEvent (e : WorkEvent) (tally : WorkTally) (s : Server) :
    Quiet s (s.rewardEvent e tally) := by
  unfold rewardEvent
  split
  · refine Quiet.trans ?_ (quiet_wake _ _)
    exact .of_fields rfl rfl rfl rfl
  · exact .refl s

theorem quiet_processEvent (e : WorkEvent) (s : Server) : Quiet s (s.processEvent e) := by
  have h := (quiet_bump .workEvents s).trans (quiet_recordEvent e _)
  unfold processEvent
  split <;> rename_i heq <;> rw [heq] at h
  · exact h
  · exact h.trans (quiet_rewardEvent e _ _)

theorem quiet_peerStep {n : Nat} {s s' : Server} (h : s.peerStep n = some s') : Quiet s s' := by
  unfold peerStep at h
  obtain ⟨l, -, hl⟩ := Option.bind_eq_some_iff.mp h
  obtain ⟨l', -, rfl⟩ := Option.map_eq_some_iff.mp hl
  exact (quiet_modifyLink n _ s).trans (quiet_wakeLoops n _)

end Foreman.Server
