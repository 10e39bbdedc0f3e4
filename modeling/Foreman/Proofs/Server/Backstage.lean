/-
What the loops and the hub leave alone behind the work queue.

Behind the work queue the aggregator keeps its books and the notifier passes rewards
on.  Of a connection they know no more than its `Endpoint`: a read loop that keeps the
queue open until it stops, and the rewards among the messages accepted for it.  `Aside`
says that a change is no matter to any of this.  Nearly everything that a server does
is an aside: reading and writing, coming and going, and messages of other kinds.  What
is not, the steps of the aggregator and the notifier, the beginning and the end of a
connection, and a write loop that takes a reward, is dealt with in the file on steps.
-/
import Foreman.Proofs.Server.Run

namespace Foreman

/-- The reward that a message brings, if it brings one. -/
def ServerMessage.reward? : ServerMessage → Option Reward
  | workGenerate _ => none
  | rewardEarned r => some r

/-- The metric counts rewards. -/
def Metric.countsRewards : Metric → Bool
  | rewardsEmitted => true
  | rewardsDelivered => true
  | rewardsUndelivered => true
  | _ => false

namespace Server

/-! ### Behind the work queue -/

/-- What is behind the work queue. -/
structure Backstage where
  payout : Payout
  store : Store
  aggregator : Option Stage
  /-- The rewards that wait for the notifier. -/
  rewards : List RewardEvent
  rewardSenders : List Sender
  notifier : Stage
  emitted : Nat
  delivered : Nat
  undelivered : Nat

/-- What is behind the work queue of a server. -/
def backstage (s : Server) : Backstage where
  payout := s.payout
  store := s.store
  aggregator := s.aggregator
  rewards := s.rewards
  rewardSenders := s.rewardSenders
  notifier := s.notifier
  emitted := s.tally.get .rewardsEmitted
  delivered := s.tally.get .rewardsDelivered
  undelivered := s.tally.get .rewardsUndelivered

/-- What matters of a connection behind the work queue: whose it is, over which link, the rewards
among the messages accepted for it, and whether its read loop has stopped. -/
structure Endpoint where
  key : WorkerKey
  generation : Nat
  link : Nat
  rewards : List Reward
  stopped : Bool
deriving DecidableEq

namespace Endpoint

/-- An endpoint that holds other rewards. -/
def holding (g : Nat) (rewards : List Reward) (x : Endpoint) : Endpoint :=
  if x.generation = g then { x with rewards := rewards } else x

/-- An endpoint whose read loop has stopped. -/
def retired (g : Nat) (x : Endpoint) : Endpoint :=
  if x.generation = g then { x with stopped := true } else x

@[simp] theorem holding_generation (g : Nat) (rewards : List Reward) (x : Endpoint) :
    (x.holding g rewards).generation = x.generation := by
  unfold holding
  split <;> rfl

@[simp] theorem holding_link (g : Nat) (rewards : List Reward) (x : Endpoint) :
    (x.holding g rewards).link = x.link := by
  unfold holding
  split <;> rfl

@[simp] theorem holding_stopped (g : Nat) (rewards : List Reward) (x : Endpoint) :
    (x.holding g rewards).stopped = x.stopped := by
  unfold holding
  split <;> rfl

@[simp] theorem retired_key (g : Nat) (x : Endpoint) : (x.retired g).key = x.key := by
  unfold retired
  split <;> rfl

@[simp] theorem retired_generation (g : Nat) (x : Endpoint) :
    (x.retired g).generation = x.generation := by
  unfold retired
  split <;> rfl

@[simp] theorem retired_link (g : Nat) (x : Endpoint) : (x.retired g).link = x.link := by
  unfold retired
  split <;> rfl

@[simp] theorem retired_rewards (g : Nat) (x : Endpoint) :
    (x.retired g).rewards = x.rewards := by
  unfold retired
  split <;> rfl

end Endpoint

def Connection.endpoint (c : Connection) : Endpoint where
  key := c.key
  generation := c.generation
  link := c.link
  rewards := c.outbox.filterMap ServerMessage.reward?
  stopped := c.reader == .stopped

/-- The endpoints of all connections that were ever registered. -/
def endpoints (s : Server) : List Endpoint := s.connections.map Connection.endpoint

/-- What is behind the work queue has become `b`, and the endpoints `xs`.  Links may have come,
connections may wait no longer to be registered, and the hub may have been closed. -/
structure Shift (s s' : Server) (b : Backstage) (xs : List Endpoint) : Prop where
  backstage : s'.backstage = b
  endpoints : s'.endpoints = xs
  upgrades : s'.upgrades ⊆ s.upgrades
  links : s.links.length ≤ s'.links.length
  closed : s.registry.isOpen = false → s'.registry.isOpen = false

/-- Nothing that matters behind the work queue has changed. -/
abbrev Aside (s s' : Server) : Prop := Shift s s' s.backstage s.endpoints

theorem Aside.refl (s : Server) : Aside s s := ⟨rfl, rfl, List.Subset.refl _, Nat.le_refl _, id⟩

theorem Shift.trans {s₁ s₂ s₃ : Server} {b b' : Backstage} {xs xs' : List Endpoint}
    (h₁ : Shift s₁ s₂ b xs) (h₂ : Shift s₂ s₃ b' xs') : Shift s₁ s₃ b' xs' where
  backstage := h₂.backstage
  endpoints := h₂.endpoints
  upgrades := List.Subset.trans h₂.upgrades h₁.upgrades
  links := Nat.le_trans h₁.links h₂.links
  closed h := h₂.closed (h₁.closed h)

/-- An aside after a shift. -/
theorem Shift.before {s s₁ s' : Server} {b : Backstage} {xs : List Endpoint}
    (h : Shift s s₁ b xs) (h₁ : Aside s₁ s') : Shift s s' b xs := by
  rw [← h.backstage, ← h.endpoints]
  exact h.trans h₁

theorem Aside.trans {s₁ s₂ s₃ : Server} (h₁ : Aside s₁ s₂) (h₂ : Aside s₂ s₃) : Aside s₁ s₃ :=
  Shift.before h₁ h₂

/-- What leaves `upgrades`, `links` and the registry alone is a shift to whatever there is. -/
theorem Shift.of_fields {s s' : Server} {b : Backstage} {xs : List Endpoint}
    (backstage : s'.backstage = b) (endpoints : s'.endpoints = xs)
    (upgrades : s'.upgrades = s.upgrades) (links : s'.links = s.links)
    (registry : s'.registry = s.registry) : Shift s s' b xs :=
  ⟨backstage, endpoints, by rw [upgrades]; exact List.Subset.refl _, Nat.le_of_eq (by rw [links]),
    by rw [registry]; exact id⟩

/-! ### Bookkeeping -/

theorem aside_agenda (agenda : List Task) (s : Server) : Aside s { s with agenda := agenda } :=
  .of_fields rfl rfl rfl rfl rfl

theorem aside_wakeAll (ts : List Task) (s : Server) : Aside s (s.wakeAll ts) := by
  obtain ⟨agenda, h⟩ := exists_wakeAll ts s
  rw [h]
  exact aside_agenda agenda s

theorem aside_wake (t : Task) (s : Server) : Aside s (s.wake t) := aside_wakeAll [t] s

theorem aside_note (n : Notice) (s : Server) : Aside s (s.note n) :=
  .of_fields rfl rfl rfl rfl rfl

/-- The keys that are live are no matter, only whether there may be new ones. -/
theorem aside_registry {r : Registry} {s : Server}
    (h : s.registry.isOpen = false → r.isOpen = false) : Aside s { s with registry := r } :=
  ⟨rfl, rfl, List.Subset.refl _, Nat.le_refl _, h⟩

theorem aside_queue (q : WorkQueue) (s : Server) : Aside s { s with queue := q } :=
  .of_fields rfl rfl rfl rfl rfl

theorem aside_dropWorkSender (x : Sender) (s : Server) : Aside s (s.dropWorkSender x) :=
  .of_fields rfl rfl rfl rfl rfl

/-- A tally that shows the rewards as they were. -/
theorem aside_tally {t : Tally} {s : Server}
    (h : ∀ m, m.countsRewards = true → t.get m = s.tally.get m) :
    Aside s { s with tally := t } where
  backstage := by
    simp only [Server.backstage, h .rewardsEmitted rfl, h .rewardsDelivered rfl,
      h .rewardsUndelivered rfl]
  endpoints := rfl
  upgrades := List.Subset.refl _
  links := Nat.le_refl _
  closed := id

theorem aside_add {m : Metric} (hm : m.countsRewards = false) (n : Nat) (s : Server) :
    Aside s { s with tally := s.tally.add m n } := by
  refine aside_tally fun k hk => Tally.get_add_of_ne ?_ n _
  exact ne_of_apply_ne Metric.countsRewards (by simp [hm, hk])

theorem aside_bump {m : Metric} (hm : m.countsRewards = false) (s : Server) :
    Aside s (s.bump m) := aside_add hm 1 s

theorem aside_showConnected (s : Server) : Aside s s.showConnected := by
  refine aside_tally fun k hk => Tally.get_set_of_ne ?_ _ _
  exact ne_of_apply_ne Metric.countsRewards (by rw [hk]; decide)

theorem aside_modifyLink (n : Nat) (f : Link → Link) (s : Server) :
    Aside s (s.modifyLink n f) :=
  ⟨rfl, rfl, List.Subset.refl _, by simp [modifyLink], id⟩

theorem aside_dropLink (n : Nat) (s : Server) : Aside s (s.dropLink n) :=
  (aside_modifyLink n _ s).trans (aside_wake _ _)

theorem aside_modifyConnection {f : Connection → Connection}
    (h : ∀ c, (f c).endpoint = c.endpoint) (g : Nat) (s : Server) :
    Aside s (s.modifyConnection g f) :=
  .of_fields rfl (map_modifyConnection _ h g s) rfl rfl rfl

theorem aside_afterStop (c : Connection) (s : Server) : Aside s (s.afterStop c) := by
  unfold afterStop
  split
  · split
    · exact aside_dropLink _ s
    · exact .refl s
  · exact .refl s

theorem aside_wakeLoops (n : Nat) (s : Server) : Aside s (s.wakeLoops n) := by
  unfold wakeLoops
  split
  · exact aside_wakeAll _ s
  · exact .refl s

theorem aside_peerStep {n : Nat} {s s' : Server} (h : s.peerStep n = some s') : Aside s s' := by
  unfold peerStep at h
  obtain ⟨l, -, hl⟩ := Option.bind_eq_some_iff.mp h
  obtain ⟨l', -, rfl⟩ := Option.map_eq_some_iff.mp hl
  exact (aside_modifyLink n _ s).trans (aside_wakeLoops n _)

/-! ### Coming and going -/

theorem aside_tellStop (g : Nat) (s : Server) : Aside s (s.tellStop g) := by
  unfold tellStop
  refine Aside.trans ?_ (aside_wakeAll _ _)
  refine aside_modifyConnection ?_ g s
  exact fun _ => rfl

theorem aside_tellStopAll (gs : List Nat) (s : Server) : Aside s (s.tellStopAll gs) := by
  unfold tellStopAll
  induction gs generalizing s with
  | nil => exact .refl s
  | cons g rest ih => exact (aside_tellStop g s).trans (ih (s.tellStop g))

theorem aside_replace (key : WorkerKey) (old : Option Nat) (s : Server) :
    Aside s (s.replace key old) := by
  cases old with
  | none => exact .refl s
  | some g =>
      exact ((aside_note _ s).trans (aside_bump rfl _)).trans (aside_tellStop g _)

theorem isOpen_unregister (key : WorkerKey) (r : Registry) :
    (r.unregister key).2.isOpen = r.isOpen := by
  unfold Registry.unregister
  split <;> rfl

theorem isOpen_release (key : WorkerKey) (g : Nat) (r : Registry) :
    (r.release key g).2.isOpen = r.isOpen := by
  unfold Registry.release
  split <;> rfl

theorem aside_unregister (key : WorkerKey) (s : Server) : Aside s (s.unregister key).2 := by
  have hopen := isOpen_unregister key s.registry
  unfold unregister
  split
  · exact .refl s
  · rename_i r heq
    rw [heq] at hopen
    exact ((aside_registry hopen.trans).trans (aside_tellStop _ _)).trans (aside_showConnected _)

theorem aside_release (key : WorkerKey) (g : Nat) (s : Server) : Aside s (s.release key g).2 := by
  have hopen := isOpen_release key g s.registry
  unfold release
  split
  · exact .refl s
  · rename_i r heq
    rw [heq] at hopen
    exact ((aside_registry hopen.trans).trans (aside_tellStop _ _)).trans (aside_showConnected _)

theorem aside_closeHub (s : Server) : Aside s s.closeHub.2 := by
  have hclose : Aside s { s with registry := s.registry.close.2 } := aside_registry fun _ => rfl
  exact (((hclose.trans (aside_dropWorkSender _ _)).trans (aside_tellStopAll _ _)).trans
    (aside_showConnected _)).trans (aside_wake _ _)

/-! ### Messages that bring no reward -/

theorem aside_offer {m : ServerMessage} (hm : m.reward? = none) (g : Nat) (s : Server) :
    Aside s (s.offer g m).2 := by
  unfold offer
  split
  · exact .refl s
  · split
    · refine Aside.trans (aside_modifyConnection ?_ g s) (aside_wake _ _)
      intro c
      simp [Connection.endpoint, hm]
    · exact .refl s

theorem aside_sendTo {m : ServerMessage} (hm : m.reward? = none) (key : WorkerKey) (s : Server) :
    Aside s (s.sendTo key m).2 := by
  unfold sendTo
  split
  · exact .refl s
  · rename_i g _
    have h := aside_offer hm g s
    split <;> rename_i s' heq <;> rw [heq] at h
    · exact h
    · exact h.trans (aside_bump rfl s')
    · exact h

theorem aside_offerAll {m : ServerMessage} (hm : m.reward? = none) (gs : List Nat) (b : Broadcast)
    (s : Server) : Aside s (offerAll m gs b s).2 := by
  induction gs generalizing b s with
  | nil => exact .refl s
  | cons g rest ih => exact (aside_offer hm g s).trans (ih _ _)

theorem aside_broadcast {m : ServerMessage} (hm : m.reward? = none) (s : Server) :
    Aside s (s.broadcast m).2 := by
  have h := aside_offerAll hm (s.registry.live.map (·.2)) {} s
  unfold broadcast
  dsimp only
  split
  · exact h
  · exact h.trans (aside_add rfl _ _)

/-! ### The read loop

Only its end matters, so what it does before is an aside as long as it has not stopped.
-/

/-- The read loop with a number has not stopped. -/
def Runs (g : Nat) (s : Server) : Prop := ∀ x ∈ s.endpoints, x.generation = g → x.stopped = false

theorem Aside.runs {s s' : Server} (h : Aside s s') {g : Nat} (hg : Runs g s) : Runs g s' := by
  rw [Runs, h.endpoints]
  exact hg

theorem aside_setReader {g : Nat} {r : Reader} {s : Server} (hr : r ≠ .stopped) (hg : Runs g s) :
    Aside s (s.setReader g r) := by
  refine .of_fields rfl ?_ rfl rfl rfl
  simp only [endpoints, setReader, modifyConnection, List.map_map]
  refine List.map_congr_left fun c hc => ?_
  by_cases hcg : c.generation = g
  · have hrunning : (c.reader == .stopped) = false := hg c.endpoint (List.mem_map_of_mem hc) hcg
    simp [Connection.endpoint, hcg, hr, hrunning]
  · simp [hcg]

theorem aside_readOn {g : Nat} {s : Server} (hg : Runs g s) : Aside s (s.readOn g) :=
  aside_setReader (by simp) hg

theorem aside_grantSlot (next : Option Nat) (s : Server) : Aside s (s.grantSlot next) := by
  unfold grantSlot
  split
  · exact .refl s
  · refine Aside.trans (aside_modifyConnection ?_ _ s) (aside_wake _ _)
    intro c
    split
    · rename_i e he
      simp [Connection.endpoint, he]
    · rfl

theorem aside_returnSlot (s : Server) : Aside s s.returnSlot :=
  (aside_queue _ s).trans (aside_grantSlot _ _)

section

variable {c : Connection} {s s' : Server}

theorem aside_pushEvent (hg : Runs c.generation s) (e : WorkEvent) : Aside s (s.pushEvent c e) :=
  have hpush := (aside_queue (s.queue.push e) s).trans (aside_wake .aggregator _)
  hpush.trans (aside_readOn (hpush.runs hg))

/-- A read loop that counts something and goes on to something else. -/
theorem aside_bump_setReader (hg : Runs c.generation s) {m : Metric} (hm : m.countsRewards = false)
    {r : Reader} (hr : r ≠ .stopped) : Aside s ((s.bump m).setReader c.generation r) :=
  have hbump := aside_bump hm s
  hbump.trans (aside_setReader hr (hbump.runs hg))

theorem aside_readText (hg : Runs c.generation s) (text : String) :
    Aside s (s.readText c text) := by
  have hin : Aside s (s.bump .framesIn) := aside_bump rfl s
  unfold readText
  refine hin.trans ?_
  dsimp only
  split
  · exact aside_setReader (by simp) (hin.runs hg)
  · exact aside_bump_setReader (hin.runs hg) rfl (by simp)

theorem aside_readFrame (hg : Runs c.generation s) (f : Frame) : Aside s (s.readFrame c f) := by
  cases f with
  | text t => exact aside_readText hg t
  | binary p => exact aside_bump_setReader hg rfl (by simp)
  | ping p =>
      have hpong := (aside_modifyLink c.link (Link.write (.pong p)) s).trans
        (aside_wake (.peer c.link) _)
      exact hpong.trans (aside_readOn (hpong.runs hg))
  | pong p => exact aside_readOn hg
  | close => exact aside_setReader (by simp) hg

theorem aside_readWaiting (hg : Runs c.generation s) {l : Link} {since : Nat}
    (h : s.readWaiting c l since = some s') : Aside s s' := by
  unfold readWaiting at h
  split at h
  · obtain rfl := Option.some.inj h
    exact aside_setReader (by simp) hg
  · split at h
    · rename_i f rest _
      obtain rfl := Option.some.inj h
      have hdrain := aside_modifyLink c.link (fun l => { l with incoming := rest }.drain) s
      exact hdrain.trans (aside_readFrame (hdrain.runs hg) f)
    · split at h
      · obtain rfl := Option.some.inj h
        exact aside_bump_setReader hg rfl (by simp)
      · split at h
        · obtain rfl := Option.some.inj h
          exact aside_bump_setReader hg rfl (by simp)
        · simp at h

theorem aside_queue_setReader (hg : Runs c.generation s) (q : WorkQueue) {r : Reader}
    (hr : r ≠ .stopped) : Aside s ({ s with queue := q }.setReader c.generation r) :=
  have hqueue := aside_queue q s
  hqueue.trans (aside_setReader hr (hqueue.runs hg))

theorem aside_readOffering (hg : Runs c.generation s) (e : WorkEvent) :
    Aside s (s.readOffering c e) := by
  unfold readOffering
  split
  · exact aside_setReader (by simp) hg
  · split
    · rename_i q _
      have hqueue := aside_queue q s
      exact hqueue.trans (aside_pushEvent (hqueue.runs hg) e)
    · exact aside_queue_setReader hg _ (by simp)

theorem aside_readQueued (hg : Runs c.generation s) (h : s.readQueued c = some s') :
    Aside s s' := by
  unfold readQueued at h
  split at h
  · obtain rfl := Option.some.inj h
    exact aside_queue_setReader hg _ (by simp)
  · simp at h

theorem aside_readGranted (hg : Runs c.generation s) (e : WorkEvent) :
    Aside s (s.readGranted c e) := by
  unfold readGranted
  split
  · have hreturn := aside_returnSlot s
    exact hreturn.trans (aside_setReader (by simp) (hreturn.runs hg))
  · exact aside_pushEvent hg e

end

/-! ### The write loop

Behind the work queue it is seen only where it takes a message that was accepted.
-/

theorem aside_setWriter (g : Nat) (w : Writer) (s : Server) : Aside s (s.setWriter g w) := by
  unfold setWriter
  refine aside_modifyConnection ?_ g s
  exact fun _ => rfl

theorem aside_writeFrame (c : Connection) (f : Frame) (s : Server) :
    Aside s (s.writeFrame c f) := (aside_modifyLink c.link _ s).trans (aside_wake _ _)

theorem aside_beginClose (c : Connection) (l : Link) (s : Server) :
    Aside s (s.beginClose c l) := by
  unfold beginClose
  split
  · exact aside_setWriter _ _ s
  · exact (aside_writeFrame c .close s).trans (aside_setWriter _ _ _)

theorem aside_writeFailed (c : Connection) (isText : Bool) (s : Server) :
    Aside s (s.writeFailed c isText) := by
  unfold writeFailed
  split
  · exact (aside_bump rfl s).trans (aside_setWriter _ _ _)
  · exact aside_setWriter _ _ s

theorem aside_send (c : Connection) (l : Link) (f : Frame) (isText : Bool) (s : Server) :
    Aside s (s.send c l f isText) := by
  unfold send
  split
  · exact aside_writeFailed c isText s
  · exact (aside_writeFrame c f s).trans (aside_setWriter _ _ _)

theorem aside_sendPing (c : Connection) (l : Link) (s : Server) : Aside s (s.sendPing c l) := by
  unfold sendPing
  refine Aside.trans ?_ (aside_send c l _ false _)
  refine aside_modifyConnection ?_ _ s
  exact fun _ => rfl

theorem aside_sendMessage (c : Connection) (l : Link) (m : ServerMessage) (s : Server) :
    Aside s (s.sendMessage c l m) := by
  unfold sendMessage
  split
  · exact aside_send c l _ true s
  · exact aside_note _ s

theorem aside_writeSending {c : Connection} {l : Link} {isText : Bool} {s s' : Server}
    (h : s.writeSending c l isText = some s') : Aside s s' := by
  unfold writeSending at h
  split at h
  · obtain rfl := Option.some.inj h
    exact aside_writeFailed c isText s
  · split at h
    · simp at h
    · obtain rfl := Option.some.inj h
      split
      · exact (aside_bump rfl s).trans (aside_setWriter _ _ _)
      · exact aside_setWriter _ _ s

theorem aside_writeClosing {c : Connection} {l : Link} {untilMs : Nat} {s s' : Server}
    (h : s.writeClosing c l untilMs = some s') : Aside s s' := by
  unfold writeClosing at h
  split at h
  · simp at h
  · obtain rfl := Option.some.inj h
    exact aside_setWriter _ _ s

theorem aside_writeLeaving (c : Connection) (s : Server) : Aside s (s.writeLeaving c) :=
  ((aside_release _ _ s).trans (aside_setWriter _ _ _)).trans (aside_afterStop c _)

end Server

end Foreman
