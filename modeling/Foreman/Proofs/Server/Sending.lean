/-
What a write loop does behind the work queue, and what it writes.

A write loop is seen there only where it takes a reward from the messages that were
accepted for its connection; whether it writes the reward is up to the socket and to the
frame limit.  `writeAs_cases` says that this is all, and that no other step writes a frame
in which a worker would find a reward.
-/
import Foreman.Proofs.Message
import Foreman.Proofs.Server.Backstage
import Foreman.Proofs.Server.Delivery

namespace Foreman

/-- The reward that a worker finds in a frame, if it finds one. -/
def Server.Frame.reward? (limit : Nat) : Server.Frame → Option Reward
  | .text t =>
    match TextFrame.decode limit ServerMessage.ofJson? t with
    | .ok m => m.reward?
    | .error _ => none
  | _ => none

namespace Server

/-! ### What is written -/

/-- The connection whose write loop may take a step in an action. -/
def Action.writer : Action → Option Nat
  | .step (.writer g) => some g
  | .writeEarly g _ => some g
  | _ => none

/-- The frames of the server that wait in a socket. -/
def outgoing (n : Nat) (s : Server) : List Frame := (s.link? n).elim [] (·.outgoing)

/-- The frames that a write loop wrote in an action. -/
def framesWritten (a : Action) (s s' : Server) : List Frame :=
  (a.writer.bind s.connection?).elim [] fun c => come (s.outgoing c.link) (s'.outgoing c.link)

/-- The rewards that workers find in frames. -/
def rewardsIn (limit : Nat) (frames : List Frame) : List Reward :=
  frames.filterMap (Frame.reward? limit)

/-- A frame that the server could write brings the reward of its message. -/
theorem reward?_of_frame {limit : Nat} {m : ServerMessage} {t : String}
    (h : m.frame limit = .ok t) : (Frame.text t).reward? limit = m.reward? := by
  rw [ServerMessage.frame, TextFrame.encode_eq] at h
  split at h
  · rename_i hle
    obtain rfl := Except.ok.inj h
    rw [Frame.reward?, TextFrame.decode_print m.printable m.ofJson?_toJson hle]
  · cases h

theorem outgoing_of_links {s s' : Server} (h : s'.links = s.links) (n : Nat) :
    s'.outgoing n = s.outgoing n := by
  simp only [outgoing, link?, h]

@[simp] theorem outgoing_setWriter (g n : Nat) (w : Writer) (s : Server) :
    (s.setWriter g w).outgoing n = s.outgoing n := rfl

theorem outgoing_writeFrame {c : Connection} {s : Server} {l : Link}
    (hl : s.link? c.link = some l) (f : Frame) :
    (s.writeFrame c f).outgoing c.link = s.outgoing c.link ++ [f] := by
  rw [writeFrame, outgoing_of_links (links_wake _ _)]
  rw [link?] at hl
  simp [outgoing, link?, modifyLink, hl, Link.write]

theorem length_fitting_le (room : Nat) (frames : List Frame) :
    (Link.fitting room frames).length ≤ frames.length := by
  induction frames generalizing room with
  | nil => exact Nat.le_refl _
  | cons f rest ih =>
      rw [Link.fitting]
      split
      · exact Nat.succ_le_succ (ih _)
      · exact Nat.zero_le _

/-- A link that is dropped has no more to say than before. -/
theorem length_outgoing_dropLink_le (m n : Nat) (s : Server) :
    ((s.dropLink m).outgoing n).length ≤ (s.outgoing n).length := by
  rw [dropLink, outgoing_of_links (links_wake _ _)]
  simp only [outgoing, link?, modifyLink, List.getElem?_modify]
  cases s.links[n]? with
  | none => simp
  | some l =>
      show (if m = n then l.dropServer else l).outgoing.length ≤ l.outgoing.length
      split
      · unfold Link.dropServer
        dsimp only
        split
        · exact Nat.le_refl _
        · exact length_fitting_le _ _
      · exact Nat.le_refl _

theorem length_outgoing_afterStop_le (c : Connection) (n : Nat) (s : Server) :
    ((s.afterStop c).outgoing n).length ≤ (s.outgoing n).length := by
  unfold afterStop
  split
  · split
    · exact length_outgoing_dropLink_le _ n s
    · exact Nat.le_refl _
  · exact Nat.le_refl _

theorem come_of_length_le {α : Type} {xs ys : List α} (h : ys.length ≤ xs.length) :
    come xs ys = [] := List.drop_eq_nil_iff.mpr h

/-! ### A step of a write loop -/

/-- What a step of the write loop of `c` does: nothing that matters behind the work queue, or it
takes the first of the rewards that were accepted, and writes it or not. -/
inductive WriteStroke (c : Connection) (s s' : Server) : Prop where
  | aside (h : Aside s s')
      (wrote : rewardsIn s.hub.maxFrameBytes (come (s.outgoing c.link) (s'.outgoing c.link)) = [])
  | takes (r : Reward) (rest : List Reward) (held : c.endpoint.rewards = r :: rest)
      (h : Shift s s' s.backstage (s.endpoints.map (Endpoint.holding c.generation rest)))
      (wrote : rewardsIn s.hub.maxFrameBytes (come (s.outgoing c.link) (s'.outgoing c.link)) = [] ∨
        rewardsIn s.hub.maxFrameBytes (come (s.outgoing c.link) (s'.outgoing c.link)) = [r])

/-- What a write loop sends is what it writes, or nothing. -/
theorem come_send {c : Connection} {l : Link} {s : Server} (hl : s.link? c.link = some l)
    (f : Frame) (isText : Bool) :
    come (s.outgoing c.link) ((s.send c l f isText).outgoing c.link) = [] ∨
      come (s.outgoing c.link) ((s.send c l f isText).outgoing c.link) = [f] := by
  unfold send
  split
  · left
    have hlinks : (s.writeFailed c isText).links = s.links := by
      unfold writeFailed
      split <;> rfl
    rw [outgoing_of_links hlinks, come_self]
  · right
    rw [outgoing_setWriter, outgoing_writeFrame hl, come_append]

theorem writeStroke_beginClose {c : Connection} {l : Link} {s : Server}
    (hl : s.link? c.link = some l) : WriteStroke c s (s.beginClose c l) := by
  refine .aside (aside_beginClose c l s) ?_
  unfold beginClose
  split
  · rw [outgoing_setWriter, come_self]
    rfl
  · rw [outgoing_setWriter, outgoing_writeFrame hl, come_append]
    rfl

theorem writeStroke_sendPing {c : Connection} {l : Link} {s : Server}
    (hl : s.link? c.link = some l) : WriteStroke c s (s.sendPing c l) := by
  refine .aside (aside_sendPing c l s) ?_
  let s₁ := s.modifyConnection c.generation fun d =>
    { d with nextPingMs := s.pingAfter d.nextPingMs }
  have hl₁ : s₁.link? c.link = some l := hl
  rcases come_send hl₁ (.ping []) false with h | h
  · exact congrArg (rewardsIn s.hub.maxFrameBytes) h
  · exact congrArg (rewardsIn s.hub.maxFrameBytes) h

/-- The rewards in what is written for a message: that of the message, or none. -/
theorem rewardsIn_sendMessage {c : Connection} {l : Link} {s : Server}
    (hl : s.link? c.link = some l) (m : ServerMessage) :
    let wrote := rewardsIn s.hub.maxFrameBytes
      (come (s.outgoing c.link) ((s.sendMessage c l m).outgoing c.link))
    wrote = [] ∨ wrote = m.reward?.toList := by
  unfold sendMessage
  split
  · rename_i t ht
    rcases come_send hl (.text t) true with h | h
    · left
      rw [h]
      rfl
    · right
      rw [h, rewardsIn, List.filterMap_cons, reward?_of_frame ht]
      cases m.reward? <;> rfl
  · left
    have hlinks : (s.note (.encodingFailed c.key)).links = s.links := rfl
    rw [outgoing_of_links hlinks, come_self]
    rfl

/-- A write loop takes the first of the messages that were accepted. -/
theorem writeStroke_message {c : Connection} {l : Link} {m : ServerMessage}
    {rest : List ServerMessage} {s : Server} (hl : s.link? c.link = some l)
    (hm : c.outbox = m :: rest)
    (hc : ∀ x ∈ s.endpoints, x.generation = c.generation → x.rewards = c.endpoint.rewards) :
    WriteStroke c s ((s.modifyConnection c.generation fun c =>
      { c with outbox := rest }).sendMessage c l m) := by
  let s₁ := s.modifyConnection c.generation fun c => { c with outbox := rest }
  have hl₁ : s₁.link? c.link = some l := hl
  have hheld : c.endpoint.rewards = m.reward?.toList ++ rest.filterMap ServerMessage.reward? := by
    rw [Connection.endpoint, hm, List.filterMap_cons]
    cases m.reward? <;> rfl
  have hendpoints : s₁.endpoints =
      s.endpoints.map (Endpoint.holding c.generation (rest.filterMap ServerMessage.reward?)) := by
    simp only [s₁, endpoints, modifyConnection, List.map_map]
    refine List.map_congr_left fun d _ => ?_
    by_cases hg : d.generation = c.generation <;>
      simp [Connection.endpoint, Endpoint.holding, hg]
  have hwrote := rewardsIn_sendMessage hl₁ m
  have htaken : Shift s s₁ s.backstage s₁.endpoints := .of_fields rfl rfl rfl rfl rfl
  have hshift := htaken.before (aside_sendMessage c l m s₁)
  cases hr : m.reward? with
  | none =>
      rw [hr] at hheld hwrote
      have hsame : s₁.endpoints = s.endpoints := by
        rw [hendpoints, List.map_congr_left (g := id), List.map_id]
        intro x hx
        by_cases hg : x.generation = c.generation
        · have hrewards := hc x hx hg
          rw [hheld] at hrewards
          rw [Endpoint.holding, if_pos hg]
          exact congrArg (Endpoint.mk x.key x.generation x.link · x.stopped) hrewards.symm
        · rw [Endpoint.holding, if_neg hg, id]
      rw [hsame] at hshift
      exact .aside hshift (hwrote.elim id id)
  | some r =>
      rw [hr] at hheld hwrote
      rw [hendpoints] at hshift
      exact .takes r _ hheld hshift hwrote

theorem links_writeSending {c : Connection} {l : Link} {isText : Bool} {s s' : Server}
    (h : s.writeSending c l isText = some s') : s'.links = s.links := by
  unfold writeSending at h
  split at h
  · obtain rfl := Option.some.inj h
    unfold writeFailed
    split <;> rfl
  · split at h
    · simp at h
    · obtain rfl := Option.some.inj h
      split <;> rfl

theorem links_writeClosing {c : Connection} {l : Link} {untilMs : Nat} {s s' : Server}
    (h : s.writeClosing c l untilMs = some s') : s'.links = s.links := by
  unfold writeClosing at h
  split at h
  · simp at h
  · obtain rfl := Option.some.inj h
    rfl

/-- A step that writes nothing. -/
theorem writeStroke_of_links {c : Connection} {s s' : Server} (h : Aside s s')
    (hlinks : s'.links = s.links) : WriteStroke c s s' := by
  refine .aside h ?_
  rw [outgoing_of_links hlinks, come_self]
  rfl

/-- **Everything that a write loop can do in a step**, as far as rewards are concerned. -/
theorem writeAs_cases {c : Connection} {s s' : Server} (h : s.writeAs c = some s')
    (hc : ∀ x ∈ s.endpoints, x.generation = c.generation → x.rewards = c.endpoint.rewards) :
    WriteStroke c s s' := by
  unfold writeAs at h
  obtain ⟨l, hl, hstep⟩ := Option.bind_eq_some_iff.mp h
  cases hw : c.writer with
  | idle =>
      simp only [hw] at hstep
      unfold writeIdle at hstep
      split at hstep
      · obtain rfl := Option.some.inj hstep
        exact writeStroke_beginClose hl
      · split at hstep
        · obtain rfl := Option.some.inj hstep
          exact writeStroke_sendPing hl
        · split at hstep
          · rename_i m rest hm
            obtain rfl := Option.some.inj hstep
            exact writeStroke_message hl hm hc
          · simp at hstep
  | sending isText =>
      simp only [hw] at hstep
      exact writeStroke_of_links (aside_writeSending hstep) (links_writeSending hstep)
  | closing untilMs =>
      simp only [hw] at hstep
      exact writeStroke_of_links (aside_writeClosing hstep) (links_writeClosing hstep)
  | leaving =>
      simp only [hw, Option.some.injEq] at hstep
      subst hstep
      refine .aside (aside_writeLeaving c s) ?_
      have hle := length_outgoing_afterStop_le c c.link
        ((s.release c.key c.generation).2.setWriter c.generation .stopped)
      rw [outgoing_setWriter, outgoing_of_links (links_release c.key c.generation s)] at hle
      rw [writeLeaving, come_of_length_le hle]
      rfl
  | stopped => simp [hw] at hstep

end Server

end Foreman
