/-
What is counted when.

Of all counters these are about the traffic: connections that come and are replaced, the
gauge of those that are live, frames that are read and rejected, events that are consumed
and could not be recorded.  `Tallies` says what a change adds to them, and whatever adds
nothing has its lemma here, one for each operation.

Three things are counted at all.  The hub counts what it does, a read loop the frame that it
takes, and the aggregator the event that it records.  `countStep_act` puts every action of
a supervised server into one of these cases, together with what an observer of the server
writes down, so that what is said about a run needs no second look at the actions.
-/
import Foreman.Proofs.Server.BackstageStep
import Foreman.Proofs.Server.Broadcast

namespace Foreman

/-- The metric counts connections, frames or events. -/
def Metric.countsTraffic : Metric → Bool
  | connectedWorkers => true
  | connections => true
  | connectionsReplaced => true
  | framesIn => true
  | framesRejected => true
  | workEvents => true
  | statsErrors => true
  | _ => false

/-- What is counted when the aggregator hands an event to a store. -/
def Store.counted (e : WorkEvent) (store : Store) : List Metric :=
  match (store.recordWork e).1 with
  | .ok _ => [.workEvents]
  | .error _ => [.workEvents, .statsErrors]

namespace Server

/-- What is counted when a read loop takes a frame. -/
def Frame.counted (limit : Nat) : Frame → List Metric
  | text t =>
    match WorkerMessage.ofFrame limit t with
    | .ok _ => [.framesIn]
    | .error _ => [.framesIn, .framesRejected]
  | binary _ => [.framesRejected]
  | _ => []

/-- Of the traffic a change has counted `ms`, each metric as often as it is there. -/
def Tallies (ms : List Metric) (s s' : Server) : Prop :=
  ∀ m : Metric, m.countsTraffic = true → s'.tally.get m = s.tally.get m + ms.count m

/-- Of the traffic a change has counted nothing. -/
abbrev Untallied (s s' : Server) : Prop := Tallies [] s s'

section

variable {ms ms' : List Metric} {s s₁ s' : Server}

theorem Tallies.of_kept
    (h : ∀ m : Metric, m.countsTraffic = true → s'.tally.get m = s.tally.get m) :
    Untallied s s' := h

theorem Tallies.of_tally (h : s'.tally = s.tally) : Untallied s s' :=
  .of_kept fun _ _ => by rw [h]

theorem Tallies.trans (h₁ : Tallies ms s s₁) (h₂ : Tallies ms' s₁ s') :
    Tallies (ms ++ ms') s s' := by
  intro m hm
  rw [h₂ m hm, h₁ m hm, List.count_append, Nat.add_assoc]

theorem Tallies.after (h₁ : Untallied s s₁) (h₂ : Tallies ms s₁ s') : Tallies ms s s' :=
  Tallies.trans h₁ h₂

theorem Tallies.before (h₁ : Tallies ms s s₁) (h₂ : Untallied s₁ s') : Tallies ms s s' := by
  have h := h₁.trans h₂
  rwa [List.append_nil] at h

end

theorem tallies_bump (m : Metric) (s : Server) : Tallies [m] s (s.bump m) := by
  intro k _
  rw [bump, Tally.bump, Tally.get_add, List.count_singleton]
  by_cases h : m = k <;> simp [h]

theorem untallied_add {m : Metric} (hm : m.countsTraffic = false) (n : Nat) (s : Server) :
    Untallied s { s with tally := s.tally.add m n } := by
  refine Tallies.of_kept fun k hk => Tally.get_add_of_ne ?_ n _
  exact ne_of_apply_ne Metric.countsTraffic (by simp [hm, hk])

theorem untallied_bump {m : Metric} (hm : m.countsTraffic = false) (s : Server) :
    Untallied s (s.bump m) := untallied_add hm 1 s

/-! ### What leaves the tally alone -/

@[simp] theorem tally_wakeAll (ts : List Task) (s : Server) : (s.wakeAll ts).tally = s.tally := by
  obtain ⟨agenda, h⟩ := exists_wakeAll ts s
  rw [h]

@[simp] theorem tally_dropLink (n : Nat) (s : Server) : (s.dropLink n).tally = s.tally :=
  tally_wake _ _

@[simp] theorem tally_afterStop (c : Connection) (s : Server) :
    (s.afterStop c).tally = s.tally := by
  unfold afterStop
  split
  · split
    · exact tally_dropLink _ _
    · rfl
  · rfl

@[simp] theorem tally_wakeLoops (n : Nat) (s : Server) : (s.wakeLoops n).tally = s.tally := by
  unfold wakeLoops
  split
  · exact tally_wakeAll _ _
  · rfl

@[simp] theorem tally_tellStop (g : Nat) (s : Server) : (s.tellStop g).tally = s.tally :=
  tally_wakeAll _ _

@[simp] theorem tally_tellStopAll (gs : List Nat) (s : Server) :
    (s.tellStopAll gs).tally = s.tally := by
  unfold tellStopAll
  induction gs generalizing s with
  | nil => rfl
  | cons g rest ih => rw [List.foldl_cons, ih, tally_tellStop]

@[simp] theorem tally_dropWorkSender (x : Sender) (s : Server) :
    (s.dropWorkSender x).tally = s.tally := rfl

@[simp] theorem tally_setReader (g : Nat) (r : Reader) (s : Server) :
    (s.setReader g r).tally = s.tally := rfl

@[simp] theorem tally_writeFrame (c : Connection) (f : Frame) (s : Server) :
    (s.writeFrame c f).tally = s.tally := tally_wake _ _

@[simp] theorem tally_grantSlot (next : Option Nat) (s : Server) :
    (s.grantSlot next).tally = s.tally := by
  unfold grantSlot
  split
  · rfl
  · exact tally_wake _ _

@[simp] theorem tally_returnSlot (s : Server) : s.returnSlot.tally = s.tally :=
  tally_grantSlot _ _

@[simp] theorem tally_pushEvent (c : Connection) (e : WorkEvent) (s : Server) :
    (s.pushEvent c e).tally = s.tally := tally_wake _ _

theorem tally_readOffering (c : Connection) (e : WorkEvent) (s : Server) :
    (s.readOffering c e).tally = s.tally := by
  unfold readOffering
  split
  · rfl
  · split
    · exact tally_pushEvent _ _ _
    · rfl

theorem tally_readQueued {c : Connection} {s s' : Server} (h : s.readQueued c = some s') :
    s'.tally = s.tally := by
  unfold readQueued at h
  split at h
  · obtain rfl := Option.some.inj h
    rfl
  · simp at h

theorem tally_readGranted (c : Connection) (e : WorkEvent) (s : Server) :
    (s.readGranted c e).tally = s.tally := by
  unfold readGranted
  split
  · exact tally_returnSlot s
  · exact tally_pushEvent _ _ _

theorem tally_takeEvent {e : WorkEvent} {s s' : Server} (h : s.takeEvent = some (e, s')) :
    s'.tally = s.tally := by
  obtain ⟨q, -, -, -, rfl⟩ := takeEvent_eq_some h
  exact tally_grantSlot _ _

theorem tally_peerStep {n : Nat} {s s' : Server} (h : s.peerStep n = some s') :
    s'.tally = s.tally := by
  unfold peerStep at h
  obtain ⟨l, -, hl⟩ := Option.bind_eq_some_iff.mp h
  obtain ⟨l', -, rfl⟩ := Option.map_eq_some_iff.mp hl
  exact tally_wakeLoops _ _

/-! ### What the hub counts -/

theorem tally_replace (key : WorkerKey) (old : Option Nat) (s : Server) :
    (s.replace key old).tally =
      old.elim s.tally fun _ => s.tally.bump .connectionsReplaced := by
  cases old with
  | none => rfl
  | some g => exact tally_tellStop g _

theorem tally_register {s : Server} (hopen : s.registry.isOpen = true) (key : WorkerKey)
    (link : Nat) :
    (s.register key link).2.tally =
      (((s.registry.find key).elim s.tally fun _ => s.tally.bump .connectionsReplaced).set
        .connectedWorkers (s.registry.register key).2.count).bump .connections := by
  simp only [register, Registry.register, hopen, if_true]
  rw [bump, tally_wakeAll]
  simp only [showConnected]
  rw [tally_replace, registry_replace]

theorem tally_unregister (key : WorkerKey) (s : Server) :
    (s.unregister key).2.tally = (s.registry.find key).elim s.tally fun _ =>
      s.tally.set .connectedWorkers (s.registry.erase key).count := by
  cases hfind : s.registry.find key with
  | none => rw [unregister_of_free hfind, Option.elim_none]
  | some g => simp [unregister, Registry.unregister, hfind, showConnected]

theorem tally_release (key : WorkerKey) (g : Nat) (s : Server) :
    (s.release key g).2.tally = if s.registry.find key = some g then
      s.tally.set .connectedWorkers (s.registry.erase key).count else s.tally := by
  by_cases hfind : s.registry.find key = some g
  · simp [release, Registry.release, hfind, showConnected]
  · rw [release_of_find_ne hfind, if_neg hfind]

theorem tally_closeHub (s : Server) :
    s.closeHub.2.tally = s.tally.set .connectedWorkers 0 := by
  simp only [closeHub, tally_wake, showConnected, tally_tellStopAll, registry_tellStopAll]
  rfl

/-! ### What a read loop counts -/

theorem tallies_readText (c : Connection) (text : String) (s : Server) :
    Tallies ((Frame.text text).counted s.hub.maxFrameBytes) s (s.readText c text) := by
  have hin := tallies_bump .framesIn s
  have hhub : (s.bump .framesIn).hub = s.hub := rfl
  unfold readText Frame.counted
  dsimp only
  rw [hhub]
  cases WorkerMessage.ofFrame s.hub.maxFrameBytes text with
  | ok m => exact hin.before (.of_tally rfl)
  | error e =>
    exact hin.trans ((tallies_bump .framesRejected (s.bump .framesIn)).before (.of_tally rfl))

theorem tallies_readFrame (c : Connection) (f : Frame) (s : Server) :
    Tallies (f.counted s.hub.maxFrameBytes) s (s.readFrame c f) := by
  cases f with
  | text t => exact tallies_readText c t s
  | binary p => exact (tallies_bump .framesRejected s).before (.of_tally rfl)
  | ping p => exact .of_tally (tally_wake _ _)
  | pong p => exact .of_tally rfl
  | close => exact .of_tally rfl

/-- Only a read loop that waits takes a frame. -/
theorem ReadStroke.socket {c : Connection} {s s' : Server} (h : ReadStroke c s s')
    (busy : c.reader.held ≠ [] ∨ c.reader.isRunning = false) :
    s.incoming c.link = s'.incoming c.link := by
  cases h with
  | took f idle running _ => simp [idle, running] at busy
  | left _ _ _ h => exact h.socket
  | put e _ _ _ h => exact h.socket
  | waits e _ _ h => exact h.socket
  | stops _ _ h => exact h.socket

theorem tallies_readWaiting {c : Connection} {l : Link} {since : Nat} {s s' : Server}
    (link : s.link? c.link = some l) (h : s.readWaiting c l since = some s') :
    ∃ frames, s.incoming c.link = frames ++ s'.incoming c.link ∧
      Tallies (frames.flatMap (Frame.counted s.hub.maxFrameBytes)) s s' := by
  unfold readWaiting at h
  split at h
  · obtain rfl := Option.some.inj h
    exact ⟨[], rfl, .of_tally rfl⟩
  · split at h
    · rename_i f rest hin
      obtain rfl := Option.some.inj h
      have hsocket := (stroke_readFrame c f
        (s.modifyLink c.link fun l => { l with incoming := rest }.drain)).socket
      rw [incoming_drained link, List.nil_append] at hsocket
      refine ⟨[f], ?_, ?_⟩
      · rw [incoming_of_link? link, hin, ← hsocket]
        rfl
      · rw [List.flatMap_singleton]
        have hdrained :
            Untallied s (s.modifyLink c.link fun l => { l with incoming := rest }.drain) :=
          .of_tally rfl
        exact hdrained.after (tallies_readFrame c f _)
    · split at h
      · obtain rfl := Option.some.inj h
        exact ⟨[], rfl, (untallied_bump (m := .transportErrors) rfl s).before (.of_tally rfl)⟩
      · split at h
        · obtain rfl := Option.some.inj h
          exact ⟨[], rfl, (untallied_bump (m := .keepaliveTimeouts) rfl s).before (.of_tally rfl)⟩
        · simp at h

/-- What a read loop counts in a step is the frame that it takes, if it takes one, unless it
leaves. -/
theorem tallies_readAs {c : Connection} {s s' : Server} (hr : c.reader ≠ .leaving)
    (h : s.readAs c = some s') :
    ∃ frames, s.incoming c.link = frames ++ s'.incoming c.link ∧
      Tallies (frames.flatMap (Frame.counted s.hub.maxFrameBytes)) s s' := by
  have hbusy (busy : c.reader.held ≠ []) : s.incoming c.link = s'.incoming c.link :=
    (readAs_cases h).socket (.inl busy)
  cases readCase_of_readAs h with
  | waiting since l _ link hstep => exact tallies_readWaiting link hstep
  | offering e phase hstep =>
    exact ⟨[], hbusy (by simp [phase, Reader.held]),
      .of_tally (hstep ▸ tally_readOffering c e s)⟩
  | queued e phase hstep =>
    exact ⟨[], hbusy (by simp [phase, Reader.held]), .of_tally (tally_readQueued hstep)⟩
  | granted e phase hstep =>
    exact ⟨[], hbusy (by simp [phase, Reader.held]),
      .of_tally (hstep ▸ tally_readGranted c e s)⟩
  | leaving phase _ => exact absurd phase hr

theorem tally_readLeaving (c : Connection) (s : Server) :
    (s.readLeaving c).tally = (s.release c.key c.generation).2.tally := by
  simp [readLeaving]

/-! ### The write loop

It counts what it sends and what it cannot send, and that is not traffic from the workers.
-/

theorem untallied_beginClose (c : Connection) (l : Link) (s : Server) :
    Untallied s (s.beginClose c l) := by
  unfold beginClose
  split
  · exact .of_tally rfl
  · exact .of_tally (tally_writeFrame _ _ _)

theorem untallied_writeFailed (c : Connection) (isText : Bool) (s : Server) :
    Untallied s (s.writeFailed c isText) := by
  unfold writeFailed
  split
  · exact (untallied_bump rfl s).before (.of_tally rfl)
  · exact .of_tally rfl

theorem untallied_send (c : Connection) (l : Link) (f : Frame) (isText : Bool) (s : Server) :
    Untallied s (s.send c l f isText) := by
  unfold send
  split
  · exact untallied_writeFailed c isText s
  · exact .of_tally (tally_writeFrame _ _ _)

theorem untallied_sendPing (c : Connection) (l : Link) (s : Server) :
    Untallied s (s.sendPing c l) := by
  have hput : Untallied s (s.modifyConnection c.generation fun d =>
      { d with nextPingMs := s.pingAfter d.nextPingMs }) := .of_tally rfl
  exact hput.after (untallied_send c l _ false _)

theorem untallied_sendMessage (c : Connection) (l : Link) (m : ServerMessage) (s : Server) :
    Untallied s (s.sendMessage c l m) := by
  unfold sendMessage
  split
  · exact untallied_send c l _ true s
  · exact .of_tally rfl

theorem untallied_writeIdle {c : Connection} {l : Link} {s s' : Server}
    (h : s.writeIdle c l = some s') : Untallied s s' := by
  unfold writeIdle at h
  split at h
  · obtain rfl := Option.some.inj h
    exact untallied_beginClose c l s
  · split at h
    · obtain rfl := Option.some.inj h
      exact untallied_sendPing c l s
    · split at h
      · rename_i m rest _
        obtain rfl := Option.some.inj h
        have htaken :
            Untallied s (s.modifyConnection c.generation fun c => { c with outbox := rest }) :=
          .of_tally rfl
        exact htaken.after (untallied_sendMessage c l m _)
      · simp at h

theorem untallied_writeSending {c : Connection} {l : Link} {isText : Bool} {s s' : Server}
    (h : s.writeSending c l isText = some s') : Untallied s s' := by
  unfold writeSending at h
  split at h
  · obtain rfl := Option.some.inj h
    exact untallied_writeFailed c isText s
  · split at h
    · simp at h
    · obtain rfl := Option.some.inj h
      split
      · exact (untallied_bump rfl s).before (.of_tally rfl)
      · exact .of_tally rfl

theorem untallied_writeClosing {c : Connection} {l : Link} {untilMs : Nat} {s s' : Server}
    (h : s.writeClosing c l untilMs = some s') : Untallied s s' := by
  unfold writeClosing at h
  split at h
  · simp at h
  · obtain rfl := Option.some.inj h
    exact .of_tally rfl

/-- A write loop counts nothing of its own; one that leaves lets the hub count. -/
theorem untallied_writeAs {c : Connection} {l : Link} {s : Server}
    (link : s.link? c.link = some l) :
    Untallied (s.afterOp c.writerOp?) ((s.writeAs c).getD s) := by
  cases hw : c.writer with
  | leaving =>
    have hleaves : s.writeAs c = some (s.writeLeaving c) := by simp [writeAs, link, hw]
    rw [Connection.writerOp?, if_pos hw, hleaves]
    exact .of_tally (tally_afterStop _ _)
  | idle =>
    simp only [Connection.writerOp?, hw, writeAs, link, Option.bind_some]
    exact getD_of_forall (.of_tally rfl) fun s' hs => untallied_writeIdle hs
  | sending isText =>
    simp only [Connection.writerOp?, hw, writeAs, link, Option.bind_some]
    exact getD_of_forall (.of_tally rfl) fun s' hs => untallied_writeSending hs
  | closing untilMs =>
    simp only [Connection.writerOp?, hw, writeAs, link, Option.bind_some]
    exact getD_of_forall (.of_tally rfl) fun s' hs => untallied_writeClosing hs
  | stopped =>
    simp only [Connection.writerOp?, hw, writeAs, link, Option.bind_some]
    exact .of_tally rfl

/-! ### Messages and rewards -/

theorem untallied_sendTo (key : WorkerKey) (m : ServerMessage) (s : Server) :
    Untallied s (s.sendTo key m).2 := by
  unfold sendTo
  split
  · exact .of_tally rfl
  · rename_i g _
    have h : Untallied s (s.offer g m).2 := .of_tally (tally_offer g m s)
    split <;> rename_i s' heq <;> rw [heq] at h
    · exact h
    · exact h.before (untallied_bump rfl s')
    · exact h

theorem untallied_broadcast (m : ServerMessage) (s : Server) :
    Untallied s (s.broadcast m).2 := by
  have h : Untallied s (offerAll m (s.registry.live.map (·.2)) {} s).2 :=
    .of_tally (tally_offerAll m _ _ s)
  unfold broadcast
  dsimp only
  split
  · exact h
  · exact h.before (untallied_add rfl _ _)

theorem untallied_deliver (r : RewardEvent) (s : Server) : Untallied s (s.deliver r) := by
  have h := untallied_sendTo r.target r.payload s
  unfold deliver
  split <;> rename_i s' heq <;> rw [heq] at h <;> exact h.before (untallied_bump rfl s')

theorem untallied_notifyStep {s s' : Server} (h : s.notifyStep = some s') : Untallied s s' := by
  unfold notifyStep at h
  split at h
  · split at h
    · rename_i r rest _
      obtain rfl := Option.some.inj h
      have htaken : Untallied s { s with rewards := rest } := .of_tally rfl
      exact htaken.after (untallied_deliver r _)
    · split at h
      · obtain rfl := Option.some.inj h
        exact .of_tally rfl
      · simp at h
  · simp at h

/-! ### The aggregator -/

theorem untallied_rewardEvent (e : WorkEvent) (tally : WorkTally) (s : Server) :
    Untallied s (s.rewardEvent e tally) := by
  unfold rewardEvent
  split
  · have hqueued : Untallied s { s with rewards := s.rewards ++ [Payout.reward s.clock e tally] } :=
      .of_tally rfl
    exact (hqueued.after (untallied_bump rfl _)).before (.of_tally (tally_wake _ _))
  · exact .of_tally rfl

theorem tallies_processEvent (e : WorkEvent) (s : Server) :
    Tallies (s.store.counted e) s (s.processEvent e) := by
  have hevent := tallies_bump .workEvents s
  have hstore : (s.bump .workEvents).store = s.store := rfl
  unfold processEvent recordEvent Store.counted
  rw [hstore]
  rcases s.store.recordWork e with ⟨answer, store⟩
  have hrecord : Tallies [.workEvents] s { s.bump .workEvents with store := store } :=
    hevent.before (.of_tally rfl)
  cases answer with
  | ok tally => exact hrecord.before (untallied_rewardEvent e tally _)
  | error err => exact hrecord.trans ((tallies_bump .statsErrors _).before (.of_tally rfl))

/-! ### What an action counts -/

/-- What an action counts, and what an observer writes down about it. -/
inductive CountStep (a : Action) (s s' : Server) : Prop where
  /-- The hub counts its part, if it has one. -/
  | hosts (frames : ∀ l : Ledger, (l.noting a s s').frames = l.frames)
      (consumed : ∀ l : Ledger, (l.noting a s s').consumed = l.consumed)
      (h : Untallied (s.afterOp (a.hubOp? s)) s')
  /-- A read loop counts what it takes. -/
  | reads (g : Nat) (taken : List Frame) (hub : a.hubOp? s = none)
      (frames : ∀ l : Ledger, (l.noting a s s').frames = l.frames ++ taken.map (g, ·))
      (consumed : ∀ l : Ledger, (l.noting a s s').consumed = l.consumed)
      (h : Tallies (taken.flatMap (Frame.counted s.hub.maxFrameBytes)) s s')
  /-- The aggregator counts the event that it records. -/
  | records (e : WorkEvent) (hub : a.hubOp? s = none)
      (frames : ∀ l : Ledger, (l.noting a s s').frames = l.frames)
      (consumed : ∀ l : Ledger, (l.noting a s s').consumed = l.consumed ++ [e])
      (h : Tallies (s.store.counted e) s s')

section

variable {a : Action} {s s' : Server}

/-- An action that the work queue does not see and that is no read loop's. -/
theorem CountStep.of_queue (reader : a.reader = none) (queue : s'.queue = s.queue)
    (h : Untallied (s.afterOp (a.hubOp? s)) s') : CountStep a s s' :=
  .hosts (fun l => frames_noting reader l s s')
    (fun l => consumed_of_same (fun _ => by rw [queue]) l) h

theorem CountStep.refl (hub : a.hubOp? s = none) : CountStep a s s :=
  .hosts (fun l => by rw [noting_self]) (fun l => by rw [noting_self])
    (by rw [hub]; exact .of_tally rfl)

/-- The frames that went from the socket of a read loop are written down. -/
theorem frames_noting_of_socket {g : Nat} (reader : a.reader = some g) {c : Connection}
    (found : s.connection? g = some c) {taken : List Frame}
    (socket : s.incoming c.link = taken ++ s'.incoming c.link) (l : Ledger) :
    (l.noting a s s').frames = l.frames ++ taken.map (g, ·) := by
  simp [Ledger.noting, reader, framesTaken, found, socket]

/-- The steps of a read loop, as `v` shows it its connection. -/
theorem countStep_reader {g : Nat} (reader : a.reader = some g) (hub : a.hubOp? s = s.readerOp? g)
    {v : Connection → Connection} (hv : ∀ c, v c = c ∨ v c = c.unaware) :
    CountStep a s (((s.connection? g).bind fun c => s.readAs (v c)).getD s) := by
  cases found : s.connection? g with
  | none => exact .refl (by rw [hub, readerOp?, found]; rfl)
  | some c =>
    have hop : a.hubOp? s = (v c).readerOp? := by
      rw [hub, readerOp?, found]
      rcases hv c with h | h <;> rw [h] <;> rfl
    have hlink : (v c).link = c.link := by
      rcases hv c with h | h
      · rw [h]
      · rw [h]
        rfl
    have hseen (s' : Server) (l : Ledger) : (l.noting a s s').consumed = l.consumed :=
      consumed_of_same (fun hnone => by simp [hnone] at reader) l
    by_cases hr : (v c).reader = .leaving
    · have hleaves : s.readAs (v c) = some (s.readLeaving (v c)) := by simp [readAs, hr]
      have hsocket : s.incoming c.link = [] ++ (s.readLeaving (v c)).incoming c.link := by
        rw [← hlink]
        exact (readStroke_readLeaving hr s).socket (.inr (by rw [hr]; rfl))
      rw [Option.bind_some, hleaves, Option.getD_some]
      refine .hosts (fun l => ?_) (hseen _) ?_
      · rw [frames_noting_of_socket reader found hsocket, List.map_nil, List.append_nil]
      · rw [hop, Connection.readerOp?, if_pos hr]
        exact .of_tally (tally_readLeaving _ _)
    · have hnone : a.hubOp? s = none := by rw [hop, Connection.readerOp?, if_neg hr]
      rw [Option.bind_some]
      refine getD_of_forall (P := CountStep a s) (.refl hnone) fun s' hs => ?_
      obtain ⟨taken, hsocket, htallies⟩ := tallies_readAs hr hs
      rw [hlink] at hsocket
      exact .reads g taken hnone (frames_noting_of_socket reader found hsocket) (hseen _) htallies

/-- The steps of a write loop, as `v` shows it its connection. -/
theorem countStep_writer {g : Nat} (reader : a.reader = none) (hub : a.hubOp? s = s.writerOp? g)
    {v : Connection → Connection} (hlink : ∀ c, (v c).link = c.link)
    (hop : ∀ c, (v c).writerOp? = c.writerOp?) :
    CountStep a s (((s.connection? g).bind fun c => s.writeAs (v c)).getD s) := by
  refine .of_queue reader ?_ ?_
  · refine getD_of_forall (P := fun t => t.queue = s.queue) rfl fun s' hs => ?_
    obtain ⟨c, -, hc⟩ := Option.bind_eq_some_iff.mp hs
    exact (sameIntake_writeAs hc).queue
  · rw [hub]
    exact writer_of_writeAs (R := Untallied) hlink hop (.of_tally rfl)
      (fun _ _ => untallied_writeAs) g

/-- What a registration counts does not depend on who waits to be registered. -/
theorem tally_register_upgrades (key : WorkerKey) (link : Nat) (upgrades : List (WorkerKey × Nat))
    (s : Server) :
    ({ s with upgrades := upgrades }.register key link).2.tally =
      (s.register key link).2.tally := by
  cases hopen : s.registry.isOpen with
  | false =>
    rw [register_of_closed hopen, register_of_closed (s := { s with upgrades := upgrades }) hopen,
      tally_dropLink, tally_dropLink]
  | true =>
    rw [tally_register hopen, tally_register (s := { s with upgrades := upgrades }) hopen]

theorem countStep_upgradeStep (link : Nat) (s : Server) :
    CountStep (.step (.upgrade link)) s ((s.upgradeStep link).getD s) := by
  have hop : Action.hubOp? s (.step (.upgrade link)) =
      (s.takeUpgrade link).map fun u => .register u.1 link := rfl
  unfold upgradeStep
  cases htake : s.takeUpgrade link with
  | none => exact .refl (by rw [hop, htake]; rfl)
  | some u =>
    obtain ⟨key, t⟩ := u
    obtain ⟨-, rfl⟩ := takeUpgrade_eq_some htake
    rw [htake] at hop
    have hqueue := queue_register key link { s with upgrades := s.upgrades.erase (key, link) }
    have htally := tally_register_upgrades key link (s.upgrades.erase (key, link)) s
    dsimp only
    split <;> rename_i heq <;> rw [heq] at hqueue htally <;>
      refine .of_queue rfl hqueue ?_ <;> rw [hop, Option.map_some, afterOp_register] <;>
      exact .of_tally htally

theorem tally_failUpgrade (link : Nat) (s : Server) : (s.failUpgrade link).tally = s.tally := by
  rcases failUpgrade_cases link s with h | ⟨key, -, h⟩
  · rw [h]
  · rw [h, tally_dropLink]
    rfl

theorem countStep_aggregateStep (h : s.aggregateStep = some s') :
    CountStep (.step .aggregator) s s' := by
  unfold aggregateStep at h
  split at h
  · split at h
    · rename_i e t htake
      obtain rfl := Option.some.inj h
      have hitems : s.queue.items = e :: (t.processEvent e).queue.items := by
        rw [(quiet_processEvent e t).sameIntake.queue]
        exact items_takeEvent htake
      have htaken : Untallied s t := .of_tally (tally_takeEvent htake)
      refine .records e rfl (fun l => frames_noting rfl l _ _) (consumed_of_taken rfl rfl hitems) ?_
      rw [← (sameBooks_takeEvent htake).store]
      exact htaken.after (tallies_processEvent e t)
    · split at h
      · obtain rfl := Option.some.inj h
        exact .of_queue rfl (quiet_wake _ _).sameIntake.queue (.of_tally (tally_wake _ _))
      · simp at h
  · simp at h

end

/-- **Everything that an action of a supervised server counts.** -/
theorem countStep_act {a : Action} (supervised : a.isSupervised = true) (s : Server) :
    CountStep a s (s.act a) := by
  cases a with
  | step t =>
    cases t with
    | reader g =>
      have h := countStep_reader (a := .step (.reader g)) (s := s) (v := id) rfl rfl
        fun _ => .inl rfl
      rwa [act, Server.step, readStep_eq]
    | writer g =>
      have h := countStep_writer (a := .step (.writer g)) (s := s) (v := id) rfl rfl
        (fun _ => rfl) fun _ => rfl
      rwa [act, Server.step, writeStep_eq]
    | peer n =>
      refine getD_of_forall (P := CountStep _ s) (.refl rfl) fun s' hs => ?_
      exact .of_queue rfl (quiet_peerStep hs).sameIntake.queue (.of_tally (tally_peerStep hs))
    | upgrade link => exact countStep_upgradeStep link s
    | aggregator =>
      exact getD_of_forall (P := CountStep _ s) (.refl rfl) fun _ hs => countStep_aggregateStep hs
    | notifier =>
      refine getD_of_forall (P := CountStep _ s) (.refl rfl) fun s' hs => ?_
      exact .of_queue rfl (quiet_notifyStep hs).sameIntake.queue (untallied_notifyStep hs)
  | readEarly g => exact countStep_reader (v := Connection.unaware) rfl rfl fun _ => .inr rfl
  | writeEarly g ping =>
    refine countStep_writer rfl rfl ?_ ?_ <;> intro c <;> cases ping <;> rfl
  | register key link =>
    refine .of_queue rfl (queue_register key link s) ?_
    rw [Action.hubOp?, afterOp_register]
    exact .of_tally rfl
  | unregister key =>
    exact .of_queue rfl (sameIntake_unregister key s).queue (.of_tally rfl)
  | close => exact .of_queue rfl (sameIntake_closeHub s).queue (.of_tally rfl)
  | sendTo key m =>
    exact .of_queue rfl (quiet_sendTo key m s).sameIntake.queue (untallied_sendTo key m s)
  | broadcast m =>
    exact .of_queue rfl (quiet_broadcast m s).sameIntake.queue (untallied_broadcast m s)
  | upgrade key link =>
    exact .of_queue rfl (quiet_wake _ _).sameIntake.queue (.of_tally (tally_wake _ _))
  | failUpgrade link =>
    exact .of_queue rfl (quiet_failUpgrade link s).sameIntake.queue
      (.of_tally (tally_failUpgrade link s))
  | connect l => exact .of_queue rfl rfl (.of_tally rfl)
  | remote n l =>
    exact .of_queue rfl (quiet_wakeLoops n _).sameIntake.queue (.of_tally (tally_wakeLoops n _))
  | clock c => exact .of_queue rfl rfl (.of_tally rfl)
  | schedule agenda => exact .of_queue rfl rfl (.of_tally rfl)
  | take => cases supervised
  | abandon => cases supervised
  | reward r => cases supervised
  | endRewards => cases supervised

end Server

end Foreman
