/-
A server without the contents of what passes through it.

An `Outline` keeps of an event whose it is, of a connection its key, its link and where its
read loop stands, and of the store the results of the providers; of the rest of what is
written, waits or is counted it keeps nothing.  So most of what a server does leaves the
outline as it is: whatever the hub, the write loops, the notifier and the workers do, and
all bookkeeping.  `outline_*` says so for each of them.  How the read loops and the
aggregator move an outline is dealt with in the file on its steps.
-/
import Foreman.Proofs.Server.Run
import Foreman.Proofs.Store.Books

namespace Foreman.Server

/-! ### Outlines -/

/-- Where a read loop stands; of its event it is known whose it is. -/
inductive Phase where
  | waiting (sinceMs : Nat)
  | offering (key : WorkerKey)
  | queued (key : WorkerKey)
  | granted (key : WorkerKey)
  | leaving
  | stopped
deriving DecidableEq

/-- The phase of a read loop. -/
def Reader.phase : Reader → Phase
  | waiting sinceMs => .waiting sinceMs
  | offering e => .offering e.workerKey
  | queued e => .queued e.workerKey
  | granted e => .granted e.workerKey
  | leaving => .leaving
  | stopped => .stopped

/-- A read loop that waits for a slot has it now. -/
def Phase.grant : Phase → Phase
  | queued key => granted key
  | p => p

/-- A connection as the outline shows it. -/
structure Member where
  key : WorkerKey
  generation : Nat
  link : Nat
  phase : Phase
deriving DecidableEq

/-- A connection in outline. -/
def Connection.member (c : Connection) : Member := ⟨c.key, c.generation, c.link, c.reader.phase⟩

/-- The work queue in outline: whose events are on it, and who waits for a slot. -/
structure Line where
  items : List WorkerKey
  free : Nat
  waiting : List Nat
  abandoned : Bool
deriving DecidableEq

/-- The work queue in outline. -/
def WorkQueue.line (q : WorkQueue) : Line :=
  ⟨q.items.map (·.workerKey), q.free, q.waiting, q.abandoned⟩

/-- What of a server does not depend on any contents. -/
structure Outline where
  hub : HubSettings
  payout : Payout
  clock : Clock
  aggregator : Option Stage
  upgrades : List (WorkerKey × Nat)
  /-- Who holds a sending end of the work queue. -/
  senders : List Sender
  members : List Member
  line : Line
  books : Store.Books

/-- A server in outline. -/
def outline (s : Server) : Outline where
  hub := s.hub
  payout := s.payout
  clock := s.clock
  aggregator := s.aggregator
  upgrades := s.upgrades
  senders := s.workSenders
  members := s.connections.map Connection.member
  line := s.queue.line
  books := s.store.books

/-- A change to connections that their outlines do not show. -/
theorem outline_modifyConnection {f : Connection → Connection} (h : ∀ c, (f c).member = c.member)
    (g : Nat) (s : Server) : (s.modifyConnection g f).outline = s.outline :=
  congrArg (fun ms => { s.outline with members := ms }) (map_modifyConnection _ h g s)

/-! ### Bookkeeping -/

@[simp] theorem outline_wakeAll (ts : List Task) (s : Server) :
    (s.wakeAll ts).outline = s.outline := by
  obtain ⟨agenda, h⟩ := exists_wakeAll ts s
  rw [h]
  rfl

@[simp] theorem outline_wake (t : Task) (s : Server) : (s.wake t).outline = s.outline :=
  outline_wakeAll [t] s

@[simp] theorem outline_bump (m : Metric) (s : Server) : (s.bump m).outline = s.outline := rfl

@[simp] theorem outline_note (n : Notice) (s : Server) : (s.note n).outline = s.outline := rfl

@[simp] theorem outline_showConnected (s : Server) : s.showConnected.outline = s.outline := rfl

@[simp] theorem outline_modifyLink (n : Nat) (f : Link → Link) (s : Server) :
    (s.modifyLink n f).outline = s.outline := rfl

@[simp] theorem outline_dropLink (n : Nat) (s : Server) : (s.dropLink n).outline = s.outline := by
  rw [dropLink, outline_wake, outline_modifyLink]

@[simp] theorem outline_afterStop (c : Connection) (s : Server) :
    (s.afterStop c).outline = s.outline := by
  unfold afterStop
  split
  · split
    · exact outline_dropLink _ s
    · rfl
  · rfl

@[simp] theorem outline_wakeLoops (n : Nat) (s : Server) :
    (s.wakeLoops n).outline = s.outline := by
  unfold wakeLoops
  split
  · exact outline_wakeAll _ s
  · rfl

theorem outline_peerStep {n : Nat} {s s' : Server} (h : s.peerStep n = some s') :
    s'.outline = s.outline := by
  unfold peerStep at h
  obtain ⟨l, -, hl⟩ := Option.bind_eq_some_iff.mp h
  obtain ⟨l', -, rfl⟩ := Option.map_eq_some_iff.mp hl
  rw [outline_wakeLoops, outline_modifyLink]

/-! ### Coming and going

Whether a connection is live is the registry's business; the outline shows it all the same.
-/

@[simp] theorem outline_tellStop (g : Nat) (s : Server) : (s.tellStop g).outline = s.outline := by
  rw [tellStop, outline_wakeAll]
  refine outline_modifyConnection ?_ g s
  exact fun _ => rfl

@[simp] theorem outline_tellStopAll (gs : List Nat) (s : Server) :
    (s.tellStopAll gs).outline = s.outline := by
  unfold tellStopAll
  induction gs generalizing s with
  | nil => rfl
  | cons g rest ih => exact (ih (s.tellStop g)).trans (outline_tellStop g s)

@[simp] theorem outline_replace (key : WorkerKey) (old : Option Nat) (s : Server) :
    (s.replace key old).outline = s.outline := by
  cases old with
  | none => rfl
  | some g => rw [replace, outline_tellStop, outline_bump, outline_note]

@[simp] theorem outline_unregister (key : WorkerKey) (s : Server) :
    (s.unregister key).2.outline = s.outline := by
  unfold unregister
  split
  · rfl
  · exact outline_tellStop _ _

@[simp] theorem outline_release (key : WorkerKey) (g : Nat) (s : Server) :
    (s.release key g).2.outline = s.outline := by
  unfold release
  split
  · rfl
  · exact outline_tellStop _ _

@[simp] theorem outline_dropWorkSender (x : Sender) (s : Server) :
    (s.dropWorkSender x).outline = { s.outline with senders := s.outline.senders.erase x } := rfl

@[simp] theorem outline_closeHub (s : Server) :
    s.closeHub.2.outline = { s.outline with senders := s.outline.senders.erase .hub } := by
  rw [closeHub, outline_wake, outline_showConnected, outline_tellStopAll, outline_dropWorkSender]
  rfl

/-! ### Messages -/

@[simp] theorem outline_offer (g : Nat) (m : ServerMessage) (s : Server) :
    (s.offer g m).2.outline = s.outline := by
  unfold offer
  split
  · rfl
  · split
    · rw [outline_wake]
      refine outline_modifyConnection ?_ g s
      exact fun _ => rfl
    · rfl

@[simp] theorem outline_sendTo (key : WorkerKey) (m : ServerMessage) (s : Server) :
    (s.sendTo key m).2.outline = s.outline := by
  unfold sendTo
  split
  · rfl
  · rename_i g _
    have h := outline_offer g m s
    split <;> rename_i heq <;> rw [heq] at h <;> exact h

theorem outline_offerAll (m : ServerMessage) (gs : List Nat) (b : Broadcast) (s : Server) :
    (offerAll m gs b s).2.outline = s.outline := by
  induction gs generalizing b s with
  | nil => rfl
  | cons g rest ih => exact (ih _ _).trans (outline_offer g m s)

@[simp] theorem outline_broadcast (m : ServerMessage) (s : Server) :
    (s.broadcast m).2.outline = s.outline := by
  have h := outline_offerAll m (s.registry.live.map (·.2)) {} s
  unfold broadcast
  dsimp only
  split <;> exact h

theorem outline_notifyStep {s s' : Server} (h : s.notifyStep = some s') :
    s'.outline = s.outline := by
  unfold notifyStep at h
  split at h
  · split at h
    · rename_i r rest _
      obtain rfl := Option.some.inj h
      have hsent := outline_sendTo r.target r.payload { s with rewards := rest }
      unfold deliver
      split <;> rename_i heq <;> rw [heq] at hsent <;> exact hsent
    · split at h
      · obtain rfl := Option.some.inj h
        rfl
      · simp at h
  · simp at h

/-! ### The write loop -/

@[simp] theorem outline_setWriter (g : Nat) (w : Writer) (s : Server) :
    (s.setWriter g w).outline = s.outline := by
  unfold setWriter
  refine outline_modifyConnection ?_ g s
  exact fun _ => rfl

@[simp] theorem outline_writeFrame (c : Connection) (f : Frame) (s : Server) :
    (s.writeFrame c f).outline = s.outline := by
  rw [writeFrame, outline_wake, outline_modifyLink]

@[simp] theorem outline_writeFailed (c : Connection) (isText : Bool) (s : Server) :
    (s.writeFailed c isText).outline = s.outline := by
  unfold writeFailed
  rw [outline_setWriter]
  split <;> rfl

@[simp] theorem outline_send (c : Connection) (l : Link) (f : Frame) (isText : Bool) (s : Server) :
    (s.send c l f isText).outline = s.outline := by
  unfold send
  split
  · exact outline_writeFailed c isText s
  · rw [outline_setWriter, outline_writeFrame]

theorem outline_writeIdle {c : Connection} {l : Link} {s s' : Server}
    (h : s.writeIdle c l = some s') : s'.outline = s.outline := by
  unfold writeIdle at h
  split at h
  · obtain rfl := Option.some.inj h
    unfold beginClose
    split
    · exact outline_setWriter _ _ s
    · rw [outline_setWriter, outline_writeFrame]
  · split at h
    · obtain rfl := Option.some.inj h
      rw [sendPing, outline_send]
      refine outline_modifyConnection ?_ _ s
      exact fun _ => rfl
    · split at h
      · rename_i m rest _
        obtain rfl := Option.some.inj h
        have htaken : (s.modifyConnection c.generation
            fun c => { c with outbox := rest }).outline = s.outline := by
          refine outline_modifyConnection ?_ _ s
          exact fun _ => rfl
        unfold sendMessage
        split
        · rw [outline_send, htaken]
        · rw [outline_note, htaken]
      · simp at h

theorem outline_writeSending {c : Connection} {l : Link} {isText : Bool} {s s' : Server}
    (h : s.writeSending c l isText = some s') : s'.outline = s.outline := by
  unfold writeSending at h
  split at h
  · obtain rfl := Option.some.inj h
    exact outline_writeFailed c isText s
  · split at h
    · simp at h
    · obtain rfl := Option.some.inj h
      rw [outline_setWriter]
      split <;> rfl

theorem outline_writeClosing {c : Connection} {l : Link} {untilMs : Nat} {s s' : Server}
    (h : s.writeClosing c l untilMs = some s') : s'.outline = s.outline := by
  unfold writeClosing at h
  split at h
  · simp at h
  · obtain rfl := Option.some.inj h
    exact outline_setWriter _ _ s

/-- No step of a write loop shows. -/
theorem outline_writeAs {c : Connection} {s s' : Server} (h : s.writeAs c = some s') :
    s'.outline = s.outline := by
  unfold writeAs at h
  obtain ⟨l, -, hl⟩ := Option.bind_eq_some_iff.mp h
  cases hw : c.writer with
  | idle =>
    simp only [hw] at hl
    exact outline_writeIdle hl
  | sending isText =>
    simp only [hw] at hl
    exact outline_writeSending hl
  | closing untilMs =>
    simp only [hw] at hl
    exact outline_writeClosing hl
  | leaving =>
    simp only [hw, Option.some.injEq] at hl
    subst hl
    rw [writeLeaving, outline_afterStop, outline_setWriter, outline_release]
  | stopped => simp [hw] at hl

end Foreman.Server
