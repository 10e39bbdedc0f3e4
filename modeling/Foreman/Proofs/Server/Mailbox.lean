/-
What everybody else leaves to the write loops.

A write loop works on its `Mailbox`: the messages accepted for its connection, the ping that
is due next, and where it stands itself.  Read loops, the registry, the aggregator and the
workers have no hand in it; all that they can do to a write loop is to tell it to stop.
`Carried` says so of a change to a server, and each of their operations has its lemma here.
The two counters of what connections lose, messages for want of room and the connection itself
for want of a sign of life, are left alone as well, but for one step of a read loop:
`ReadMove.tires` is the one that finds that nothing has come for too long.
-/
import Foreman.Proofs.Server.Broadcast

namespace Foreman

/-- The metric counts what is lost at connections: messages for which there was no room, and
connections that gave no sign of life. -/
def Metric.countsLosses : Metric → Bool
  | outboundDropped => true
  | keepaliveTimeouts => true
  | _ => false

namespace Server

/-! ### What a write loop works on -/

/-- What a write loop works on, and where it stands. -/
structure Mailbox where
  key : WorkerKey
  generation : Nat
  link : Nat
  outbox : List ServerMessage
  writer : Writer
  nextPingMs : Nat
deriving DecidableEq

/-- The mailbox of a connection. -/
def Connection.mailbox (c : Connection) : Mailbox where
  key := c.key
  generation := c.generation
  link := c.link
  outbox := c.outbox
  writer := c.writer
  nextPingMs := c.nextPingMs

/-- The mailbox is the same, and a connection that was told to stop is still told so. -/
structure Carries (c c' : Connection) : Prop where
  mailbox : c'.mailbox = c.mailbox
  told : c.shutdown = true → c'.shutdown = true

namespace Carries

variable {c c' d : Connection}

theorem refl (c : Connection) : Carries c c := ⟨rfl, id⟩

theorem trans (h₁ : Carries c c') (h₂ : Carries c' d) : Carries c d :=
  ⟨h₂.mailbox.trans h₁.mailbox, fun h => h₂.told (h₁.told h)⟩

theorem key (h : Carries c c') : c'.key = c.key := congrArg Mailbox.key h.mailbox

theorem generation (h : Carries c c') : c'.generation = c.generation :=
  congrArg Mailbox.generation h.mailbox

theorem link (h : Carries c c') : c'.link = c.link := congrArg Mailbox.link h.mailbox

theorem outbox (h : Carries c c') : c'.outbox = c.outbox := congrArg Mailbox.outbox h.mailbox

theorem writer (h : Carries c c') : c'.writer = c.writer := congrArg Mailbox.writer h.mailbox

theorem nextPingMs (h : Carries c c') : c'.nextPingMs = c.nextPingMs :=
  congrArg Mailbox.nextPingMs h.mailbox

end Carries

/-- Every connection goes on with the mailbox that it had, and nothing was lost. -/
structure Carried (s s' : Server) : Prop where
  connections : ∃ f : Connection → Connection,
    (∀ c, Carries c (f c)) ∧ s'.connections = s.connections.map f
  losses : ∀ m : Metric, m.countsLosses = true → s'.tally.get m = s.tally.get m

theorem connection?_of_map {f : Connection → Connection}
    (hf : ∀ c, (f c).generation = c.generation) {s s' : Server}
    (h : s'.connections = s.connections.map f) (g : Nat) :
    s'.connection? g = (s.connection? g).map f := by
  rw [connection?, h, List.find?_map]
  simp only [Function.comp_def, hf]
  rfl

theorem connection?_modified {f : Connection → Connection}
    (hf : ∀ c, (f c).generation = c.generation) {s : Server} {c : Connection}
    (found : s.connection? c.generation = some c) :
    (s.modifyConnection c.generation f).connection? c.generation = some (f c) := by
  have hnumbered (d : Connection) :
      (if d.generation = c.generation then f d else d).generation = d.generation := by
    split
    · exact hf d
    · rfl
  rw [connection?_of_map hnumbered rfl, found, Option.map_some, if_pos rfl]

namespace Carried

variable {s s₁ s' : Server}

/-- What leaves the connections and the tally alone. -/
theorem of_fields (connections : s'.connections = s.connections) (tally : s'.tally = s.tally) :
    Carried s s' :=
  ⟨⟨id, .refl, connections.trans (List.map_id _).symm⟩, fun _ _ => by rw [tally]⟩

theorem refl (s : Server) : Carried s s := .of_fields rfl rfl

theorem trans (h₁ : Carried s s₁) (h₂ : Carried s₁ s') : Carried s s' := by
  obtain ⟨⟨f, hf, hfirst⟩, hlosses₁⟩ := h₁
  obtain ⟨⟨k, hk, hsecond⟩, hlosses₂⟩ := h₂
  refine ⟨⟨k ∘ f, fun c => (hf c).trans (hk (f c)), ?_⟩, fun m hm => ?_⟩
  · rw [hsecond, hfirst, List.map_map]
  · rw [hlosses₂ m hm, hlosses₁ m hm]

theorem connection? (h : Carried s s') : ∃ f : Connection → Connection,
    (∀ c, Carries c (f c)) ∧ ∀ g, s'.connection? g = (s.connection? g).map f := by
  obtain ⟨f, hf, hmap⟩ := h.connections
  exact ⟨f, hf, connection?_of_map (fun c => (hf c).generation) hmap⟩

/-- Who was registered is so still. -/
theorem found (h : Carried s s') {g : Nat} {c : Connection} (hc : s.connection? g = some c) :
    ∃ c', s'.connection? g = some c' ∧ Carries c c' := by
  obtain ⟨f, hf, hmap⟩ := h.connection?
  exact ⟨f c, by rw [hmap, hc, Option.map_some], hf c⟩

/-- Nobody was registered. -/
theorem origin (h : Carried s s') {g : Nat} {c' : Connection} (hc : s'.connection? g = some c') :
    ∃ c, s.connection? g = some c ∧ Carries c c' := by
  obtain ⟨f, hf, hmap⟩ := h.connection?
  rw [hmap] at hc
  obtain ⟨c, hfound, rfl⟩ := Option.map_eq_some_iff.mp hc
  exact ⟨c, hfound, hf c⟩

end Carried

/-! ### Bookkeeping -/

theorem carried_wakeAll (ts : List Task) (s : Server) : Carried s (s.wakeAll ts) := by
  obtain ⟨agenda, h⟩ := exists_wakeAll ts s
  rw [h]
  exact .of_fields rfl rfl

theorem carried_wake (t : Task) (s : Server) : Carried s (s.wake t) := carried_wakeAll [t] s

theorem carried_note (n : Notice) (s : Server) : Carried s (s.note n) := .of_fields rfl rfl

theorem carried_queue (q : WorkQueue) (s : Server) : Carried s { s with queue := q } :=
  .of_fields rfl rfl

theorem carried_registry (r : Registry) (s : Server) : Carried s { s with registry := r } :=
  .of_fields rfl rfl

theorem carried_dropWorkSender (x : Sender) (s : Server) : Carried s (s.dropWorkSender x) :=
  .of_fields rfl rfl

/-- A tally that shows what was lost as it did. -/
theorem carried_tally {t : Tally} {s : Server}
    (h : ∀ m : Metric, m.countsLosses = true → t.get m = s.tally.get m) :
    Carried s { s with tally := t } :=
  ⟨(Carried.refl s).connections, h⟩

theorem carried_bump {m : Metric} (hm : m.countsLosses = false) (s : Server) :
    Carried s (s.bump m) := by
  refine carried_tally fun k hk => Tally.get_add_of_ne ?_ 1 _
  exact ne_of_apply_ne Metric.countsLosses (by simp [hm, hk])

theorem carried_showConnected (s : Server) : Carried s s.showConnected := by
  refine carried_tally fun k hk => Tally.get_set_of_ne ?_ _ _
  exact ne_of_apply_ne Metric.countsLosses (by rw [hk]; decide)

theorem carried_modifyLink (n : Nat) (f : Link → Link) (s : Server) :
    Carried s (s.modifyLink n f) := .of_fields rfl rfl

theorem carried_dropLink (n : Nat) (s : Server) : Carried s (s.dropLink n) :=
  (carried_modifyLink n _ s).trans (carried_wake _ _)

theorem carried_modifyConnection {f : Connection → Connection} (h : ∀ c, Carries c (f c)) (g : Nat)
    (s : Server) : Carried s (s.modifyConnection g f) := by
  refine ⟨⟨fun c => if c.generation = g then f c else c, fun c => ?_, rfl⟩, fun _ _ => rfl⟩
  dsimp only
  split
  · exact h c
  · exact .refl c

theorem carried_afterStop (c : Connection) (s : Server) : Carried s (s.afterStop c) := by
  unfold afterStop
  split
  · split
    · exact carried_dropLink _ s
    · exact .refl s
  · exact .refl s

theorem carried_wakeLoops (n : Nat) (s : Server) : Carried s (s.wakeLoops n) := by
  unfold wakeLoops
  split
  · exact carried_wakeAll _ s
  · exact .refl s

theorem carried_peerStep {n : Nat} {s s' : Server} (h : s.peerStep n = some s') : Carried s s' := by
  unfold peerStep at h
  obtain ⟨l, -, hl⟩ := Option.bind_eq_some_iff.mp h
  obtain ⟨l', -, rfl⟩ := Option.map_eq_some_iff.mp hl
  exact (carried_modifyLink n _ s).trans (carried_wakeLoops n _)

/-! ### Coming and going -/

theorem carried_tellStop (g : Nat) (s : Server) : Carried s (s.tellStop g) := by
  have hsignal (c : Connection) : Carries c { c with stopSignals := c.stopSignals + 1 } :=
    ⟨rfl, fun _ => by simp [Connection.shutdown]⟩
  exact (carried_modifyConnection hsignal g s).trans (carried_wakeAll _ _)

theorem carried_tellStopAll (gs : List Nat) (s : Server) : Carried s (s.tellStopAll gs) := by
  unfold tellStopAll
  induction gs generalizing s with
  | nil => exact .refl s
  | cons g rest ih => exact (carried_tellStop g s).trans (ih (s.tellStop g))

theorem carried_replace (key : WorkerKey) (old : Option Nat) (s : Server) :
    Carried s (s.replace key old) := by
  cases old with
  | none => exact .refl s
  | some g => exact ((carried_note _ s).trans (carried_bump rfl _)).trans (carried_tellStop g _)

theorem carried_unregister (key : WorkerKey) (s : Server) : Carried s (s.unregister key).2 := by
  unfold unregister
  split
  · exact .refl s
  · exact ((carried_registry _ s).trans (carried_tellStop _ _)).trans (carried_showConnected _)

theorem carried_release (key : WorkerKey) (g : Nat) (s : Server) :
    Carried s (s.release key g).2 := by
  unfold release
  split
  · exact .refl s
  · exact ((carried_registry _ s).trans (carried_tellStop _ _)).trans (carried_showConnected _)

theorem carried_closeHub (s : Server) : Carried s s.closeHub.2 :=
  ((((carried_registry _ s).trans (carried_dropWorkSender _ _)).trans
    (carried_tellStopAll _ _)).trans (carried_showConnected _)).trans (carried_wake _ _)

/-! ### The read loops -/

theorem carried_setReader (g : Nat) (r : Reader) (s : Server) : Carried s (s.setReader g r) := by
  unfold setReader
  refine carried_modifyConnection ?_ g s
  exact fun _ => ⟨rfl, id⟩

theorem carried_readOn (g : Nat) (s : Server) : Carried s (s.readOn g) := carried_setReader g _ s

theorem carried_pushEvent (c : Connection) (e : WorkEvent) (s : Server) :
    Carried s (s.pushEvent c e) :=
  ((carried_queue _ s).trans (carried_wake _ _)).trans (carried_readOn _ _)

theorem carried_grantSlot (next : Option Nat) (s : Server) : Carried s (s.grantSlot next) := by
  cases next with
  | none => exact .refl s
  | some g =>
    refine (carried_modifyConnection (fun c => ?_) g s).trans (carried_wake _ _)
    split
    · exact ⟨rfl, id⟩
    · exact .refl c

theorem carried_returnSlot (s : Server) : Carried s s.returnSlot :=
  (carried_queue _ s).trans (carried_grantSlot _ _)

theorem carried_bump_readOn {m : Metric} (hm : m.countsLosses = false) (g : Nat) (s : Server) :
    Carried s ((s.bump m).readOn g) :=
  (carried_bump hm s).trans (carried_readOn g _)

theorem carried_readText (c : Connection) (text : String) (s : Server) :
    Carried s (s.readText c text) := by
  unfold readText
  refine (carried_bump (m := .framesIn) rfl s).trans ?_
  dsimp only
  split
  · exact carried_setReader _ _ _
  · exact carried_bump_readOn rfl _ _

theorem carried_readFrame (c : Connection) (f : Frame) (s : Server) :
    Carried s (s.readFrame c f) := by
  cases f with
  | text text => exact carried_readText c text s
  | binary _ => exact carried_bump_readOn rfl _ s
  | ping _ => exact ((carried_modifyLink _ _ s).trans (carried_wake _ _)).trans (carried_readOn _ _)
  | pong _ => exact carried_readOn _ s
  | close => exact carried_setReader _ _ s

theorem carried_readOffering (c : Connection) (e : WorkEvent) (s : Server) :
    Carried s (s.readOffering c e) := by
  unfold readOffering
  split
  · exact carried_setReader _ _ s
  · split
    · exact (carried_queue _ s).trans (carried_pushEvent c e _)
    · exact (carried_queue _ s).trans (carried_setReader _ _ _)

theorem carried_readQueued {c : Connection} {s s' : Server} (h : s.readQueued c = some s') :
    Carried s s' := by
  unfold readQueued at h
  split at h
  · obtain rfl := Option.some.inj h
    exact (carried_queue _ s).trans (carried_setReader _ _ _)
  · simp at h

theorem carried_readGranted (c : Connection) (e : WorkEvent) (s : Server) :
    Carried s (s.readGranted c e) := by
  unfold readGranted
  split
  · exact (carried_returnSlot s).trans (carried_setReader _ _ _)
  · exact carried_pushEvent c e s

theorem carried_readLeaving (c : Connection) (s : Server) : Carried s (s.readLeaving c) :=
  ((((carried_release c.key c.generation s).trans (carried_setReader _ _ _)).trans
    (carried_dropWorkSender _ _)).trans (carried_afterStop c _)).trans (carried_wake _ _)

/-- The read loop of `c` has waited for a frame since `sinceMs`, and gives up. -/
structure Tires (c : Connection) (sinceMs : Nat) (s s' : Server) : Prop where
  waiting : c.reader = .waiting sinceMs
  empty : s.incoming c.link = []
  overdue : sinceMs + s.hub.keepaliveTimeoutMs ≤ s.clock.monoMs
  result : s' = (s.bump .keepaliveTimeouts).setReader c.generation .leaving

/-- What a step of a read loop is to the write loops. -/
inductive ReadMove (c : Connection) (s s' : Server) : Prop where
  | carried (h : Carried s s')
  | tires (sinceMs : Nat) (h : Tires c sinceMs s s')

theorem readMove_readWaiting {c : Connection} {l : Link} {since : Nat} {s s' : Server}
    (hr : c.reader = .waiting since) (hl : s.link? c.link = some l)
    (h : s.readWaiting c l since = some s') : ReadMove c s s' := by
  unfold readWaiting at h
  split at h
  · obtain rfl := Option.some.inj h
    exact .carried (carried_setReader _ _ s)
  · split at h
    · obtain rfl := Option.some.inj h
      exact .carried ((carried_modifyLink _ _ s).trans (carried_readFrame c _ _))
    · rename_i hincoming
      split at h
      · obtain rfl := Option.some.inj h
        exact .carried ((carried_bump rfl s).trans (carried_setReader _ _ _))
      · split at h
        · rename_i hdue
          obtain rfl := Option.some.inj h
          have hempty : s.incoming c.link = [] := (incoming_of_link? hl).trans hincoming
          exact .tires since ⟨hr, hempty, hdue, rfl⟩
        · simp at h

/-- **Everything that a read loop can do to the write loops in a step** is to tell its own to
stop, and it gives up for want of a sign of life only as `Tires` says. -/
theorem readMove_of_readAs {c : Connection} {s s' : Server} (h : s.readAs c = some s') :
    ReadMove c s s' := by
  cases readCase_of_readAs h with
  | waiting since l phase link hstep => exact readMove_readWaiting phase link hstep
  | offering e _ hstep => exact .carried (hstep ▸ carried_readOffering c e s)
  | queued e _ hstep => exact .carried (carried_readQueued hstep)
  | granted e _ hstep => exact .carried (hstep ▸ carried_readGranted c e s)
  | leaving _ hstep => exact .carried (hstep ▸ carried_readLeaving c s)

/-! ### The pipeline -/

theorem carried_recordEvent (e : WorkEvent) (s : Server) : Carried s (s.recordEvent e).2 := by
  unfold recordEvent
  split
  · exact .of_fields rfl rfl
  · rename_i store _
    have hstore : Carried s { s with store := store } := .of_fields rfl rfl
    exact (hstore.trans (carried_bump rfl _)).trans (carried_note _ _)

theorem carried_rewardEvent (e : WorkEvent) (tally : WorkTally) (s : Server) :
    Carried s (s.rewardEvent e tally) := by
  unfold rewardEvent
  split
  · have hqueued :
        Carried s { s with rewards := s.rewards ++ [Payout.reward s.clock e tally] } :=
      .of_fields rfl rfl
    exact (hqueued.trans (carried_bump rfl _)).trans (carried_wake _ _)
  · exact .refl s

theorem carried_processEvent (e : WorkEvent) (s : Server) : Carried s (s.processEvent e) := by
  have h := (carried_bump (m := .workEvents) rfl s).trans (carried_recordEvent e _)
  unfold processEvent
  split <;> rename_i heq <;> rw [heq] at h
  · exact h
  · exact h.trans (carried_rewardEvent e _ _)

theorem carried_takeEvent {e : WorkEvent} {s s' : Server} (h : s.takeEvent = some (e, s')) :
    Carried s s' := by
  obtain ⟨p, -, hp⟩ := Option.map_eq_some_iff.mp h
  obtain ⟨-, rfl⟩ := Prod.mk.inj hp
  exact (carried_queue _ s).trans (carried_grantSlot _ _)

theorem carried_aggregateStep {s s' : Server} (h : s.aggregateStep = some s') : Carried s s' := by
  unfold aggregateStep at h
  split at h
  · split at h
    · rename_i e t htake
      obtain rfl := Option.some.inj h
      exact (carried_takeEvent htake).trans (carried_processEvent e t)
    · split at h
      · obtain rfl := Option.some.inj h
        refine Carried.trans ?_ (carried_wake _ _)
        exact .of_fields rfl rfl
      · simp at h
  · simp at h

theorem carried_abandonQueue (s : Server) : Carried s s.abandonQueue :=
  (carried_queue _ s).trans (carried_wakeAll _ _)

end Server

end Foreman
