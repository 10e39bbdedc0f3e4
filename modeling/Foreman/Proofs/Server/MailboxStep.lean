/-
What an action does to the messages of the connections.

`writeMove_of_writeAs` puts a step of a write loop into one of seven cases: it begins to close,
sends a ping, takes the message that has waited longest, finishes a write or a close, or stops.
Each case says what becomes of the connection and which frames were written.  `mailStep_act`
does the same for all actions.  Besides the write loops only two kinds of action matter to the
mailboxes: messages are offered, and a connection joins.
-/
import Foreman.Proofs.Server.Mailbox
import Foreman.Proofs.Server.Outline
import Foreman.Proofs.Server.Sending

namespace Foreman.Server

/-! ### A step of a write loop -/

theorem modifyConnection_modifyConnection {f : Connection → Connection}
    (hf : ∀ d, (f d).generation = d.generation) (k : Connection → Connection) (g : Nat)
    (s : Server) : (s.modifyConnection g f).modifyConnection g k =
      s.modifyConnection g fun d => k (f d) := by
  simp only [modifyConnection, List.map_map]
  refine congrArg (fun cs => { s with connections := cs }) (List.map_congr_left fun d _ => ?_)
  by_cases hg : d.generation = g <;> simp [hf, hg]

/-- The connection of `c` has become what `f` makes of it, and `frames` were written. -/
structure Wrote (c : Connection) (f : Connection → Connection) (frames : List Frame)
    (s s' : Server) : Prop where
  member : ∀ d : Connection, (f d).member = d.member
  carried : Carried (s.modifyConnection c.generation f) s'
  frames : come (s.outgoing c.link) (s'.outgoing c.link) = frames

/-- What comes of a write: the frame is on its way, or the socket is gone. -/
inductive Sends (f : Frame) (isText : Bool) : Writer → List Frame → Prop where
  | written : Sends f isText (.sending isText) [f]
  | failed : Sends f isText .leaving []

/-- What a step of the write loop of `c` does. -/
inductive WriteMove (c : Connection) (s s' : Server) : Prop where
  /-- It was told to stop, and sends a close if there is anyone to send it to. -/
  | closes (w : Writer) (frames : List Frame) (idle : c.writer = .idle) (told : c.shutdown = true)
      (next : w = .leaving ∧ frames = [] ∨ (∃ t, w = .closing t) ∧ frames = [.close])
      (h : Wrote c (fun d => { d with writer := w }) frames s s')
  /-- A ping is due. -/
  | pings (w : Writer) (frames : List Frame) (idle : c.writer = .idle)
      (due : c.nextPingMs ≤ s.clock.monoMs) (sends : Sends (.ping []) false w frames)
      (h : Wrote c (fun d => { d with nextPingMs := s.pingAfter d.nextPingMs, writer := w })
        frames s s')
  /-- It takes the first message. -/
  | takes (m : ServerMessage) (rest : List ServerMessage) (text : String) (w : Writer)
      (frames : List Frame) (idle : c.writer = .idle) (held : c.outbox = m :: rest)
      (fits : m.frame s.hub.maxFrameBytes = .ok text) (sends : Sends (.text text) true w frames)
      (h : Wrote c (fun d => { d with outbox := rest, writer := w }) frames s s')
  /-- It takes the first message and leaves it out because its text is too long. -/
  | skips (m : ServerMessage) (rest : List ServerMessage) (e : FrameError)
      (idle : c.writer = .idle) (held : c.outbox = m :: rest)
      (tooLong : m.frame s.hub.maxFrameBytes = .error e)
      (h : s' = (s.modifyConnection c.generation fun d => { d with outbox := rest }).note
        (.encodingFailed c.key))
  /-- What it has written is on its way, or the socket is gone. -/
  | finishes (isText : Bool) (w : Writer) (sending : c.writer = .sending isText)
      (next : w = .idle ∨ w = .leaving)
      (h : Wrote c (fun d => { d with writer := w }) [] s s')
  /-- The close is on its way, or takes too long. -/
  | closed (untilMs : Nat) (closing : c.writer = .closing untilMs)
      (h : Wrote c (fun d => { d with writer := .leaving }) [] s s')
  /-- It lets go of the connection and stops. -/
  | leaves (leaving : c.writer = .leaving)
      (released : s'.registry.find c.key ≠ some c.generation)
      (h : Wrote c (fun d => { d with writer := .stopped }) [] s s')

section

variable {c : Connection} {l : Link} {s s' : Server}

theorem Wrote.generation {f : Connection → Connection} {frames : List Frame}
    (h : Wrote c f frames s s') (d : Connection) : (f d).generation = d.generation :=
  congrArg Member.generation (h.member d)

/-- What is written after a change to the connection. -/
theorem Wrote.after {f k : Connection → Connection} {frames : List Frame}
    (hf : ∀ d, (f d).member = d.member)
    (h : Wrote c k frames (s.modifyConnection c.generation f) s') :
    Wrote c (fun d => k (f d)) frames s s' := by
  refine ⟨fun d => (h.member (f d)).trans (hf d), ?_, h.frames⟩
  rw [← modifyConnection_modifyConnection fun d => congrArg Member.generation (hf d)]
  exact h.carried

/-- A step that writes nothing. -/
theorem wrote_nothing {f : Connection → Connection} (hf : ∀ d, (f d).member = d.member)
    (h : Carried (s.modifyConnection c.generation f) s') (links : s'.links = s.links) :
    Wrote c f [] s s' :=
  ⟨hf, h, by rw [outgoing_of_links links, come_self]⟩

theorem wrote_setWriter (w : Writer) :
    Wrote c (fun d => { d with writer := w }) [] s (s.setWriter c.generation w) :=
  wrote_nothing (fun _ => rfl) (.refl _) rfl

/-- A message that is taken and reported. -/
theorem wrote_skip (rest : List ServerMessage) (n : Notice) :
    Wrote c (fun d => { d with outbox := rest }) [] s
      ((s.modifyConnection c.generation fun d => { d with outbox := rest }).note n) :=
  wrote_nothing (fun _ => rfl) (carried_note _ _) rfl

theorem wrote_bump_setWriter {m : Metric} (hm : m.countsLosses = false) (w : Writer) :
    Wrote c (fun d => { d with writer := w }) [] s ((s.bump m).setWriter c.generation w) :=
  wrote_nothing (fun _ => rfl) (carried_bump hm (s.setWriter c.generation w)) rfl

theorem wrote_writeFrame (hl : s.link? c.link = some l) (f : Frame) (w : Writer) :
    Wrote c (fun d => { d with writer := w }) [f] s
      ((s.writeFrame c f).setWriter c.generation w) := by
  refine ⟨fun _ => rfl, ?_, ?_⟩
  · obtain ⟨agenda, h⟩ := exists_wakeAll [.peer c.link] (s.modifyLink c.link (Link.write f))
    have hframe : s.writeFrame c f = { s.modifyLink c.link (Link.write f) with agenda := agenda } :=
      h
    rw [hframe]
    exact .of_fields rfl rfl
  · rw [outgoing_setWriter, outgoing_writeFrame hl, come_append]

theorem wrote_writeFailed (isText : Bool) :
    Wrote c (fun d => { d with writer := .leaving }) [] s (s.writeFailed c isText) := by
  unfold writeFailed
  split
  · exact wrote_bump_setWriter rfl .leaving
  · exact wrote_setWriter .leaving

theorem wrote_send (hl : s.link? c.link = some l) (f : Frame) (isText : Bool) :
    ∃ w frames, Sends f isText w frames ∧
      Wrote c (fun d => { d with writer := w }) frames s (s.send c l f isText) := by
  unfold send
  split
  · exact ⟨_, _, .failed, wrote_writeFailed isText⟩
  · exact ⟨_, _, .written, wrote_writeFrame hl f _⟩

theorem writeMove_beginClose (idle : c.writer = .idle) (told : c.shutdown = true)
    (hl : s.link? c.link = some l) : WriteMove c s (s.beginClose c l) := by
  unfold beginClose
  split
  · exact .closes .leaving [] idle told (.inl ⟨rfl, rfl⟩) (wrote_setWriter _)
  · exact .closes _ [.close] idle told (.inr ⟨⟨_, rfl⟩, rfl⟩) (wrote_writeFrame hl _ _)

theorem writeMove_sendPing (idle : c.writer = .idle) (due : c.nextPingMs ≤ s.clock.monoMs)
    (hl : s.link? c.link = some l) : WriteMove c s (s.sendPing c l) := by
  obtain ⟨w, frames, hsends, hwrote⟩ := wrote_send (c := c) (l := l)
    (s := s.modifyConnection c.generation fun d =>
      { d with nextPingMs := s.pingAfter d.nextPingMs }) hl (.ping []) false
  refine .pings w frames idle due hsends (hwrote.after ?_)
  exact fun _ => rfl

theorem writeMove_message {m : ServerMessage} {rest : List ServerMessage} (idle : c.writer = .idle)
    (held : c.outbox = m :: rest) (hl : s.link? c.link = some l) :
    WriteMove c s ((s.modifyConnection c.generation fun d => { d with outbox := rest }).sendMessage
      c l m) := by
  have hhub : (s.modifyConnection c.generation fun d => { d with outbox := rest }).hub = s.hub :=
    rfl
  unfold sendMessage
  rw [hhub]
  cases hframe : m.frame s.hub.maxFrameBytes with
  | error e => exact .skips m rest e idle held hframe rfl
  | ok text =>
    obtain ⟨w, frames, hsends, hwrote⟩ := wrote_send (c := c) (l := l)
      (s := s.modifyConnection c.generation fun d => { d with outbox := rest }) hl (.text text) true
    refine .takes m rest text w frames idle held hframe hsends (hwrote.after ?_)
    exact fun _ => rfl

theorem writeMove_writeIdle (idle : c.writer = .idle) (hl : s.link? c.link = some l)
    (h : s.writeIdle c l = some s') : WriteMove c s s' := by
  unfold writeIdle at h
  split at h
  · rename_i told
    obtain rfl := Option.some.inj h
    exact writeMove_beginClose idle told hl
  · split at h
    · rename_i due
      obtain rfl := Option.some.inj h
      exact writeMove_sendPing idle due hl
    · split at h
      · rename_i m rest held
        obtain rfl := Option.some.inj h
        exact writeMove_message idle held hl
      · simp at h

theorem writeMove_writeSending {isText : Bool} (sending : c.writer = .sending isText)
    (h : s.writeSending c l isText = some s') : WriteMove c s s' := by
  unfold writeSending at h
  split at h
  · obtain rfl := Option.some.inj h
    exact .finishes isText .leaving sending (.inr rfl) (wrote_writeFailed isText)
  · split at h
    · simp at h
    · obtain rfl := Option.some.inj h
      refine .finishes isText .idle sending (.inl rfl) ?_
      split
      · exact wrote_bump_setWriter rfl .idle
      · exact wrote_setWriter .idle

theorem writeMove_writeClosing {untilMs : Nat} (closing : c.writer = .closing untilMs)
    (h : s.writeClosing c l untilMs = some s') : WriteMove c s s' := by
  unfold writeClosing at h
  split at h
  · simp at h
  · obtain rfl := Option.some.inj h
    exact .closed untilMs closing (wrote_setWriter _)

theorem find_release (key : WorkerKey) (g : Nat) (s : Server) :
    (s.release key g).2.registry.find key ≠ some g := by
  by_cases hfind : s.registry.find key = some g
  · rw [(release_of_find hfind).2.1, Registry.find_erase, if_pos rfl]
    simp
  · rwa [release_of_find_ne hfind]

/-- A release tells the connections to stop, whatever their loops are at. -/
theorem connections_release (key : WorkerKey) (g : Nat) (s : Server) : ∃ n : Nat → Nat,
    (s.release key g).2.connections =
      s.connections.map fun d => { d with stopSignals := d.stopSignals + n d.generation } := by
  unfold release
  split
  · exact ⟨fun _ => 0, (List.map_id _).symm⟩
  · rename_i registry _
    refine ⟨fun k => if k = g then 1 else 0, ?_⟩
    obtain ⟨agenda, h⟩ := exists_wakeAll [.reader g, .writer g]
      (({ s with registry := registry } : Server).modifyConnection g fun c =>
        { c with stopSignals := c.stopSignals + 1 })
    dsimp only
    rw [showConnected, tellStop, h]
    refine List.map_congr_left fun d _ => ?_
    dsimp only
    split <;> rfl

theorem carried_release_setWriter (w : Writer) (key : WorkerKey) (g k : Nat) (s : Server) :
    Carried (s.setWriter k w) ((s.release key g).2.setWriter k w) := by
  obtain ⟨n, hn⟩ := connections_release key g s
  refine ⟨⟨fun d => { d with stopSignals := d.stopSignals + n d.generation }, fun d => ⟨rfl, ?_⟩,
    ?_⟩, (carried_release key g s).losses⟩
  · simp only [Connection.shutdown, decide_eq_true_eq]
    omega
  · simp only [setWriter, modifyConnection, hn, List.map_map]
    refine List.map_congr_left fun d _ => ?_
    simp only [Function.comp]
    split <;> rfl

theorem writeMove_writeLeaving (leaving : c.writer = .leaving) :
    WriteMove c s (s.writeLeaving c) := by
  have hstop := quiet_setWriter c.generation .stopped (s.release c.key c.generation).2
  have hquiet := hstop.trans (quiet_afterStop c _)
  have hstopped := carried_release_setWriter .stopped c.key c.generation c.generation s
  refine .leaves leaving ?_ ⟨fun _ => rfl, hstopped.trans (carried_afterStop c _), ?_⟩
  · rw [writeLeaving, hquiet.sameHub.registry]
    exact find_release c.key c.generation s
  · have hle := length_outgoing_afterStop_le c c.link
      ((s.release c.key c.generation).2.setWriter c.generation .stopped)
    rw [outgoing_setWriter, outgoing_of_links (links_release c.key c.generation s)] at hle
    rw [writeLeaving, come_of_length_le hle]

/-- **Everything that a write loop can do in a step.** -/
theorem writeMove_of_writeAs (h : s.writeAs c = some s') : WriteMove c s s' := by
  unfold writeAs at h
  obtain ⟨l, hl, hstep⟩ := Option.bind_eq_some_iff.mp h
  cases hw : c.writer with
  | idle =>
    simp only [hw] at hstep
    exact writeMove_writeIdle hw hl hstep
  | sending isText =>
    simp only [hw] at hstep
    exact writeMove_writeSending hw hstep
  | closing untilMs =>
    simp only [hw] at hstep
    exact writeMove_writeClosing hw hstep
  | leaving =>
    simp only [hw, Option.some.injEq] at hstep
    exact hstep ▸ writeMove_writeLeaving hw
  | stopped => simp [hw] at hstep

/-- What a write loop does that takes its connection `d` to be `c`. -/
theorem WriteMove.seen {d : Connection}
    (mailbox : c.mailbox = { d.mailbox with nextPingMs := c.nextPingMs })
    (told : c.shutdown = true → d.shutdown = true)
    (due : c.nextPingMs ≤ s.clock.monoMs → d.nextPingMs ≤ s.clock.monoMs)
    (h : WriteMove c s s') : WriteMove d s s' := by
  have hkey : c.key = d.key := congrArg Mailbox.key mailbox
  have hgeneration : c.generation = d.generation := congrArg Mailbox.generation mailbox
  have hlink : c.link = d.link := congrArg Mailbox.link mailbox
  have houtbox : c.outbox = d.outbox := congrArg Mailbox.outbox mailbox
  have hwriter : c.writer = d.writer := congrArg Mailbox.writer mailbox
  have hwrote {f : Connection → Connection} {frames : List Frame} (h : Wrote c f frames s s') :
      Wrote d f frames s s' := by
    obtain ⟨hnumbered, hcarried, hframes⟩ := h
    rw [hgeneration] at hcarried
    rw [hlink] at hframes
    exact ⟨hnumbered, hcarried, hframes⟩
  cases h with
  | closes w frames idle htold next h =>
    exact .closes w frames (hwriter ▸ idle) (told htold) next (hwrote h)
  | pings w frames idle hdue sends h =>
    exact .pings w frames (hwriter ▸ idle) (due hdue) sends (hwrote h)
  | takes m rest text w frames idle held fits sends h =>
    exact .takes m rest text w frames (hwriter ▸ idle) (houtbox ▸ held) fits sends (hwrote h)
  | skips m rest e idle held tooLong h =>
    refine .skips m rest e (hwriter ▸ idle) (houtbox ▸ held) tooLong ?_
    rw [h, hgeneration, hkey]
  | finishes isText w sending next h =>
    exact .finishes isText w (hwriter ▸ sending) next (hwrote h)
  | closed untilMs closing h => exact .closed untilMs (hwriter ▸ closing) (hwrote h)
  | leaves leaving released h =>
    refine .leaves (hwriter ▸ leaving) ?_ (hwrote h)
    rwa [hkey, hgeneration] at released

/-- A write loop that has not noticed that it was told to stop, or that a ping is due, does nothing
that it would not do otherwise. -/
theorem writeMove_early (ping : Bool)
    (h : s.writeAs (if ping then c.unaware else c.unaware.beforePing s.clock.monoMs) = some s') :
    WriteMove c s s' := by
  cases ping with
  | true =>
    rw [if_pos rfl] at h
    refine WriteMove.seen (c := c.unaware) rfl (fun told => ?_) id (writeMove_of_writeAs h)
    simp [Connection.shutdown, Connection.unaware] at told
  | false =>
    rw [if_neg Bool.false_ne_true] at h
    refine WriteMove.seen (c := c.unaware.beforePing s.clock.monoMs) rfl (fun told => ?_)
      (fun due => ?_) (writeMove_of_writeAs h)
    · simp [Connection.shutdown, Connection.unaware, Connection.beforePing] at told
    · simp [Connection.beforePing] at due

end

/-! ### Offers -/

/-- The message that an action offers to a connection, if it offers one. -/
def offered (g : Nat) (a : Action) (s : Server) : Option ServerMessage :=
  match a with
  | .sendTo key m => if s.registry.find key = some g then some m else none
  | .broadcast m => if g ∈ s.registry.live.map (·.2) then some m else none
  | .step .notifier =>
    if s.notifier = .running then
      (s.rewards.head?.filter fun r => s.registry.find r.target = some g).map (·.payload)
    else none
  | _ => none

/-- What a connection gets of what is offered to it. -/
def gets (m? : Option ServerMessage) (g : Nat) (s : Server) : List ServerMessage :=
  if s.answer g = .accepted then m?.toList else []

/-- A connection with what it gets of what is offered to it. -/
def Connection.getting (s : Server) (m? : Option ServerMessage) (c : Connection) : Connection :=
  { c with outbox := c.outbox ++ s.gets m? c.generation }

/-- A connection has no room for what is offered to it. -/
def refuses (m? : Option ServerMessage) (g : Nat) (s : Server) : Bool :=
  m?.isSome && decide (s.answer g = .full)

/-- A message was offered to those connections for which there is one in `offers`: who accepted it
has it, and who had no room for it is counted. -/
structure Posts (offers : Nat → Option ServerMessage) (s s' : Server) : Prop where
  connections : s'.connections = s.connections.map fun c => c.getting s (offers c.generation)
  dropped : s'.tally.get .outboundDropped = s.tally.get .outboundDropped +
    s.connections.countP fun c => s.refuses (offers c.generation) c.generation
  timeouts : s'.tally.get .keepaliveTimeouts = s.tally.get .keepaliveTimeouts

section

variable {s s' : Server}

/-- A message for one key is offered to the connection that holds it. -/
theorem sendTo_eq (key : WorkerKey) (m : ServerMessage) (s : Server) :
    s.sendTo key m = match s.registry.find key with
      | none => (false, s)
      | some g => (decide (s.answer g = .accepted),
          if s.answer g = .full then s.bump .outboundDropped else (s.offer g m).2) := by
  unfold sendTo
  cases s.registry.find key with
  | none => rfl
  | some g =>
    dsimp only
    rw [offer_eq]
    cases s.answer g <;> rfl

/-- Only who was ever registered has no room. -/
theorem countP_generation (hosted : Hosted s) {g : Nat} (full : s.answer g = .full) :
    s.connections.countP (fun c => decide (c.generation = g)) = 1 := by
  obtain ⟨c, hc⟩ : ∃ c, s.connection? g = some c := by
    cases hc : s.connection? g with
    | none => simp [answer, hc] at full
    | some c => exact ⟨c, rfl⟩
  have hmem : g ∈ s.connections.map (·.generation) :=
    List.mem_map.mpr ⟨c, List.mem_of_find?_eq_some hc, generation_of_connection? hc⟩
  have hone := List.count_eq_one_of_mem hosted.nodup_generations hmem
  rw [List.count, List.countP_map] at hone
  exact hone

theorem posts_sendTo (hosted : Hosted s) (key : WorkerKey) (m : ServerMessage) :
    Posts (fun g => if s.registry.find key = some g then some m else none) s
      (s.sendTo key m).2 := by
  rw [sendTo_eq]
  cases hfind : s.registry.find key with
  | none => exact ⟨by simp [Connection.getting, gets], by simp [refuses], rfl⟩
  | some g =>
    dsimp only
    have hgets : ∀ c ∈ s.connections,
        c.getting s (if some g = some c.generation then some m else none) =
          if c.generation = g ∧ c.offer s.hub = .accepted then c.given m else c := by
      intro c hc
      rw [Connection.getting, gets, answer_of_mem hosted hc]
      by_cases hg : c.generation = g
      · subst hg
        by_cases hoffer : c.offer s.hub = .accepted <;> simp [hoffer, Connection.given]
      · simp [hg, Ne.symm hg]
    have hrefuses : ∀ c ∈ s.connections,
        s.refuses (if some g = some c.generation then some m else none) c.generation =
          (decide (c.generation = g) && decide (s.answer g = .full)) := by
      intro c _
      rw [refuses]
      by_cases hg : c.generation = g
      · subst hg
        simp
      · simp [hg, Ne.symm hg]
    have hgiven := List.map_congr_left hgets
    rw [← connections_offer hosted] at hgiven
    have hcount := List.countP_congr fun c hc => Bool.eq_iff_iff.mp (hrefuses c hc)
    by_cases hfull : s.answer g = .full
    · simp only [hfull, decide_true, Bool.and_true] at hcount
      rw [if_pos hfull]
      rw [countP_generation hosted hfull] at hcount
      refine ⟨?_, ?_, ?_⟩
      · rw [hgiven, offer_eq, if_neg]
        · rfl
        · simp [hfull]
      · rw [hcount]
        exact Tally.get_add .outboundDropped .outboundDropped 1 s.tally
      · exact Tally.get_add .outboundDropped .keepaliveTimeouts 1 s.tally
    · simp only [hfull, decide_false, Bool.and_false, List.countP_false] at hcount
      rw [if_neg hfull]
      refine ⟨hgiven.symm, ?_, ?_⟩
      · rw [hcount, tally_offer]
        rfl
      · rw [tally_offer]

theorem posts_broadcast (hosted : Hosted s) (m : ServerMessage) :
    Posts (fun g => if g ∈ s.registry.live.map (·.2) then some m else none) s
      (s.broadcast m).2 := by
  have hspread := spread_broadcast hosted m
  have hgets : ∀ c ∈ s.connections,
      c.getting s (if c.generation ∈ s.registry.live.map (·.2) then some m else none) =
        if s.takes c then c.given m else c := by
    intro c hc
    have htakes := takes_iff hosted hc
    rw [Connection.getting, gets, answer_of_mem hosted hc]
    by_cases hlive : c.generation ∈ s.registry.live.map (·.2)
    · by_cases hoffer : c.offer s.hub = .accepted
      · rw [if_pos (htakes.mpr ⟨hlive, hoffer⟩), if_pos hoffer, if_pos hlive]
        rfl
      · rw [if_neg fun h => hoffer (htakes.mp h).2, if_neg hoffer, List.append_nil]
    · rw [if_neg fun h => hlive (htakes.mp h).1, if_neg hlive]
      simp
  have hrefuses : ∀ c ∈ s.connections,
      (s.refuses (if c.generation ∈ s.registry.live.map (·.2) then some m else none)
          c.generation = true ↔ s.misses c = true) := by
    intro c hc
    rw [refuses, answer_of_mem hosted hc, misses, Bool.and_eq_true,
      Bool.and_eq_true, isLive_iff hosted hc]
    by_cases hlive : c.generation ∈ s.registry.live.map (·.2) <;> simp [hlive]
  have hcount := List.countP_congr hrefuses
  refine ⟨?_, ?_, ?_⟩
  · rw [hspread.connections]
    exact (List.map_congr_left hgets).symm
  · rw [hcount, hspread.tally]
    split
    · rename_i hnone
      rw [hnone]
      rfl
    · rw [Tally.get_add, if_pos rfl]
  · rw [hspread.tally]
    split
    · rfl
    · exact Tally.get_add_of_ne (by simp) _ _

theorem Posts.carried {offers : Nat → Option ServerMessage} {s₁ : Server} (h : Posts offers s s₁)
    (connections : s'.connections = s₁.connections)
    (losses : ∀ m : Metric, m.countsLosses = true → s'.tally.get m = s₁.tally.get m) :
    Posts offers s s' :=
  ⟨connections.trans h.connections, (losses _ rfl).trans h.dropped,
    (losses _ rfl).trans h.timeouts⟩

theorem posts_notifyStep (hosted : Hosted s) (h : s.notifyStep = some s') :
    (Carried s s' ∧ ∀ g, offered g (.step .notifier) s = none) ∨
      Posts (fun g => offered g (.step .notifier) s) s s' := by
  unfold notifyStep at h
  split at h
  · rename_i running
    split at h
    · rename_i r rest hrewards
      obtain rfl := Option.some.inj h
      have hoffered : (fun g => offered g (.step .notifier) s) =
          fun g => if s.registry.find r.target = some g then some r.payload else none := by
        funext g
        simp only [offered, running, if_true, hrewards, List.head?_cons]
        by_cases hfind : s.registry.find r.target = some g <;> simp [hfind]
      have hrest : Hosted { s with rewards := rest } := hosted.between ⟨rfl, rfl⟩
      have hposts := posts_sendTo hrest r.target r.payload
      right
      rw [hoffered]
      unfold deliver
      split <;> rename_i heq <;> rw [heq] at hposts
      · exact Posts.carried ⟨hposts.connections, hposts.dropped, hposts.timeouts⟩ rfl
          (carried_bump rfl _).losses
      · exact Posts.carried ⟨hposts.connections, hposts.dropped, hposts.timeouts⟩ rfl
          (carried_bump rfl _).losses
    · rename_i hrewards
      split at h
      · obtain rfl := Option.some.inj h
        exact .inl ⟨.of_fields rfl rfl, fun g => by simp [offered, hrewards]⟩
      · simp at h
  · simp at h

theorem offered_notifier (h : s.notifyStep = none) (g : Nat) :
    offered g (.step .notifier) s = none := by
  unfold notifyStep at h
  split at h
  · split at h
    · simp at h
    · rename_i hrewards
      simp [offered, hrewards]
  · rename_i hstopped
    exact if_neg hstopped

end

/-! ### Actions -/

/-- A connection has joined. -/
structure Joins (key : WorkerKey) (link : Nat) (s s' : Server) : Prop where
  connections : ∃ t, Carried s t ∧
    s'.connections = t.connections ++ [Connection.start s key (s.registry.lastGeneration + 1) link]
  losses : ∀ m : Metric, m.countsLosses = true → s'.tally.get m = s.tally.get m

/-- What an action does to the messages of the connections. -/
inductive MailStep (a : Action) (s s' : Server) : Prop where
  /-- Nothing; and a write loop that has nothing to do leaves all as it is. -/
  | still (idle : a.writer = none ∨ s' = s) (quiet : ∀ g, offered g a s = none)
      (h : Carried s s')
  /-- A message is offered. -/
  | posts (writer : a.writer = none) (reader : a.reader = none)
      (h : Posts (fun g => offered g a s) s s')
  /-- A connection joins. -/
  | joins (key : WorkerKey) (link : Nat) (writer : a.writer = none) (reader : a.reader = none)
      (quiet : ∀ g, offered g a s = none) (h : Joins key link s s')
  /-- A write loop takes a step. -/
  | writes (c : Connection) (writer : a.writer = some c.generation)
      (found : s.connection? c.generation = some c) (h : WriteMove c s s')
  /-- A read loop finds that nothing has come for too long. -/
  | tires (c : Connection) (sinceMs : Nat) (reader : a.reader = some c.generation)
      (found : s.connection? c.generation = some c) (h : Tires c sinceMs s s')

section

variable {a : Action} {s s' : Server}

theorem writer_of_reader {g : Nat} (reader : a.reader = some g) : a.writer = none := by
  cases a with
  | step t => cases t <;> first | rfl | simp [Action.reader] at reader
  | writeEarly k ping => simp [Action.reader] at reader
  | _ => rfl

theorem offered_of_writer {g k : Nat} (writer : a.writer = some k) : offered g a s = none := by
  cases a with
  | step t => cases t <;> first | rfl | simp [Action.writer] at writer
  | writeEarly k ping => rfl
  | _ => simp [Action.writer] at writer

theorem offered_of_reader {g k : Nat} (reader : a.reader = some k) : offered g a s = none := by
  cases a with
  | step t => cases t <;> first | rfl | simp [Action.reader] at reader
  | readEarly k => rfl
  | _ => simp [Action.reader] at reader

theorem mailStep_readAs {c : Connection} (reader : a.reader = some c.generation)
    (found : s.connection? c.generation = some c)
    (h : s.readAs c = some s' ∨ s.readAs c.unaware = some s') : MailStep a s s' := by
  have hstill : Carried s s' → MailStep a s s' :=
    .still (.inl (writer_of_reader reader)) fun _ => offered_of_reader reader
  rcases h with h | h
  · cases readMove_of_readAs h with
    | carried h => exact hstill h
    | tires since h => exact .tires c since reader found h
  · cases readMove_of_readAs h with
    | carried h => exact hstill h
    | tires since h =>
      exact .tires c since reader found ⟨h.waiting, h.empty, h.overdue, h.result⟩

theorem carried_or_joins (key : WorkerKey) (link : Nat) (s : Server) :
    Carried s (s.register key link).2 ∨ Joins key link s (s.register key link).2 := by
  by_cases hopen : s.registry.isOpen = true
  · right
    simp only [register, Registry.register, hopen, if_true]
    -- What is there before the new connection is.
    generalize hready : showConnected (replace key (s.registry.find key) _) = t
    have hcarried : Carried s t := by
      rw [← hready]
      exact ((carried_registry _ s).trans (carried_replace key _ _)).trans (carried_showConnected _)
    have houtline : t.outline = s.outline := by
      rw [← hready, outline_showConnected, outline_replace]
      rfl
    have hstart : Connection.start t key (s.registry.lastGeneration + 1) link =
        Connection.start s key (s.registry.lastGeneration + 1) link := by
      rw [Connection.start, Connection.start,
        show t.clock = s.clock from congrArg Outline.clock houtline,
        show t.hub = s.hub from congrArg Outline.hub houtline]
    obtain ⟨agenda, h⟩ := exists_wakeAll
      [.reader (s.registry.lastGeneration + 1), .writer (s.registry.lastGeneration + 1)]
      { t with
        connections := t.connections ++
          [Connection.start t key (s.registry.lastGeneration + 1) link]
        workSenders := t.workSenders ++ [Sender.reader (s.registry.lastGeneration + 1)] }
    rw [h]
    refine ⟨⟨t, hcarried, ?_⟩, fun m hm => ?_⟩
    · rw [← hstart]
      rfl
    · have hcount := (carried_bump (m := .connections) rfl t).losses m hm
      exact hcount.trans (hcarried.losses m hm)
  · left
    rw [Bool.not_eq_true] at hopen
    rw [register_of_closed hopen]
    exact carried_dropLink link s

theorem carried_withdrawn (u : WorkerKey × Nat) (s : Server) :
    Carried s { s with upgrades := s.upgrades.erase u } := .of_fields rfl rfl

theorem mailStep_upgradeStep {link : Nat} (writer : a.writer = none) (reader : a.reader = none)
    (quiet : ∀ g, offered g a s = none) (h : s.upgradeStep link = some s') : MailStep a s s' := by
  cases upgradeCase_of_upgradeStep h with
  | joins key _ _ h =>
    subst h
    have hleft := carried_withdrawn (key, link) s
    rcases carried_or_joins key link { s with upgrades := s.upgrades.erase (key, link) } with
      hcarried | ⟨⟨t, hcarried, hconnections⟩, hlosses⟩
    · exact .still (.inl writer) quiet (hleft.trans hcarried)
    · exact .joins key link writer reader quiet ⟨⟨t, hleft.trans hcarried, hconnections⟩, hlosses⟩
  | refused key _ _ h =>
    subst h
    exact .still (.inl writer) quiet (((carried_withdrawn (key, link) s).trans
      (carried_dropLink link _)).trans (carried_note _ _))

theorem carried_failUpgrade (link : Nat) (s : Server) : Carried s (s.failUpgrade link) := by
  rcases failUpgrade_cases link s with h | ⟨key, -, h⟩
  · rw [h]
    exact .refl s
  · rw [h]
    exact ((carried_withdrawn (key, link) s).trans (carried_note _ _)).trans
      (carried_dropLink link _)

/-- **Everything that an action does to the messages of the connections.** -/
theorem mailStep_act (hosted : Hosted s) (a : Action) : MailStep a s (s.act a) := by
  have hrest (quiet : ∀ g, offered g a s = none) : MailStep a s s :=
    .still (.inr rfl) quiet (.refl s)
  cases a with
  | step t =>
    cases t with
    | reader g =>
      refine getD_of_forall (hrest fun _ => rfl) fun s' hs => ?_
      rw [Server.step, readStep_eq] at hs
      obtain ⟨c, found, hc⟩ := Option.bind_eq_some_iff.mp hs
      obtain rfl := generation_of_connection? found
      exact mailStep_readAs rfl found (.inl hc)
    | writer g =>
      refine getD_of_forall (hrest fun _ => rfl) fun s' hs => ?_
      rw [Server.step, writeStep_eq] at hs
      obtain ⟨c, found, hc⟩ := Option.bind_eq_some_iff.mp hs
      obtain rfl := generation_of_connection? found
      exact .writes c rfl found (writeMove_of_writeAs hc)
    | peer n =>
      exact getD_of_forall (hrest fun _ => rfl) fun s' hs =>
        .still (.inl rfl) (fun _ => rfl) (carried_peerStep hs)
    | upgrade =>
      exact getD_of_forall (hrest fun _ => rfl) fun s' hs =>
        mailStep_upgradeStep rfl rfl (fun _ => rfl) hs
    | aggregator =>
      exact getD_of_forall (hrest fun _ => rfl) fun s' hs =>
        .still (.inl rfl) (fun _ => rfl) (carried_aggregateStep hs)
    | notifier =>
      cases hs : s.notifyStep with
      | none =>
        have hact : s.act (.step .notifier) = s := by rw [act, step, hs]; rfl
        rw [hact]
        exact hrest (offered_notifier hs)
      | some s' =>
        have hact : s.act (.step .notifier) = s' := by rw [act, step, hs]; rfl
        rw [hact]
        rcases posts_notifyStep hosted hs with ⟨hcarried, hquiet⟩ | hposts
        · exact .still (.inl rfl) hquiet hcarried
        · exact .posts rfl rfl hposts
  | readEarly g =>
    refine getD_of_forall (hrest fun _ => rfl) fun s' hs => ?_
    obtain ⟨c, found, hc⟩ := Option.bind_eq_some_iff.mp hs
    obtain rfl := generation_of_connection? found
    exact mailStep_readAs rfl found (.inr hc)
  | writeEarly g ping =>
    refine getD_of_forall (hrest fun _ => rfl) fun s' hs => ?_
    obtain ⟨c, found, hc⟩ := Option.bind_eq_some_iff.mp hs
    obtain rfl := generation_of_connection? found
    exact .writes c rfl found (writeMove_early ping hc)
  | register key link =>
    rcases carried_or_joins key link s with hcarried | hjoins
    · exact .still (.inl rfl) (fun _ => rfl) hcarried
    · exact .joins key link rfl rfl (fun _ => rfl) hjoins
  | unregister key => exact .still (.inl rfl) (fun _ => rfl) (carried_unregister key s)
  | close => exact .still (.inl rfl) (fun _ => rfl) (carried_closeHub s)
  | sendTo key m => exact .posts rfl rfl (posts_sendTo hosted key m)
  | broadcast m => exact .posts rfl rfl (posts_broadcast hosted m)
  | upgrade key link =>
    have hwaits : Carried s { s with upgrades := s.upgrades ++ [(key, link)] } :=
      .of_fields rfl rfl
    exact .still (.inl rfl) (fun _ => rfl) (hwaits.trans (carried_wake _ _))
  | failUpgrade link => exact .still (.inl rfl) (fun _ => rfl) (carried_failUpgrade link s)
  | connect l => exact .still (.inl rfl) (fun _ => rfl) (.of_fields rfl rfl)
  | remote n l =>
    have hlink : Carried s (s.modifyLink n fun _ => l) := carried_modifyLink n _ s
    exact .still (.inl rfl) (fun _ => rfl) (hlink.trans (carried_wakeLoops n _))
  | clock c => exact .still (.inl rfl) (fun _ => rfl) (.of_fields rfl rfl)
  | schedule agenda => exact .still (.inl rfl) (fun _ => rfl) (.of_fields rfl rfl)
  | take =>
    refine getD_of_forall (hrest fun _ => rfl) fun s' hs => ?_
    obtain ⟨⟨e, t⟩, htake, rfl⟩ := Option.map_eq_some_iff.mp hs
    exact .still (.inl rfl) (fun _ => rfl) (carried_takeEvent htake)
  | abandon => exact .still (.inl rfl) (fun _ => rfl) (carried_abandonQueue s)
  | reward r =>
    have hqueued : Carried s { s with rewards := s.rewards ++ [r] } := .of_fields rfl rfl
    exact .still (.inl rfl) (fun _ => rfl) (hqueued.trans (carried_wake _ _))
  | endRewards =>
    have hended : Carried s (s.dropRewardSender .consumer) := .of_fields rfl rfl
    exact .still (.inl rfl) (fun _ => rfl) (hended.trans (carried_wake _ _))

end

/-! ### One connection -/

/-- The messages that a connection accepts in an action. -/
def accepted (g : Nat) (a : Action) (s : Server) : List ServerMessage := s.gets (offered g a s) g

/-- What an action makes of the connection with a number. -/
inductive Fate (g : Nat) (a : Action) (s s' : Server) : Prop where
  | absent (before : s.connection? g = none) (after : s'.connection? g = none)
  /-- It has joined. -/
  | fresh (c' : Connection) (before : s.connection? g = none) (after : s'.connection? g = some c')
      (key : WorkerKey) (link : Nat) (h : c' = Connection.start s key g link)
  /-- It has accepted a message or not, and its write loop has done nothing. -/
  | kept (c c' : Connection) (before : s.connection? g = some c)
      (after : s'.connection? g = some c')
      (mailbox : c'.mailbox = { c.mailbox with outbox := c.outbox ++ accepted g a s })
      (told : c.shutdown = true → c'.shutdown = true)
      (wrote : a.writer = some g → framesWritten a s s' = [])
  /-- Its write loop has taken a step. -/
  | moves (c : Connection) (before : s.connection? g = some c) (generation : c.generation = g)
      (writer : a.writer = some g) (h : WriteMove c s s')

section

variable {a : Action} {s s' : Server}

theorem accepted_of_quiet {g : Nat} (h : offered g a s = none) : accepted g a s = [] := by
  simp [accepted, gets, h]

/-- A write loop changes its own connection, and stops only once that is released. -/
theorem WriteMove.wrote {c : Connection} (h : WriteMove c s s') :
    ∃ f frames, Wrote c f frames s s' ∧
      ((f c).writer = .stopped → s'.registry.find c.key ≠ some c.generation) := by
  cases h with
  | closes w frames _ _ next h =>
    refine ⟨_, frames, h, fun (hw : w = .stopped) => ?_⟩
    simp [hw] at next
  | pings w frames _ _ sends h =>
    refine ⟨_, frames, h, fun (hw : w = .stopped) => ?_⟩
    cases sends <;> cases hw
  | takes m rest text w frames _ _ _ sends h =>
    refine ⟨_, frames, h, fun (hw : w = .stopped) => ?_⟩
    cases sends <;> cases hw
  | skips m rest e idle _ _ h =>
    subst h
    refine ⟨_, [], wrote_skip rest _, fun (hw : c.writer = .stopped) => ?_⟩
    rw [idle] at hw
    cases hw
  | finishes isText w _ next h =>
    refine ⟨_, [], h, fun (hw : w = .stopped) => ?_⟩
    simp [hw] at next
  | closed untilMs _ h => exact ⟨_, [], h, fun hw => by cases hw⟩
  | leaves _ released h => exact ⟨_, [], h, fun _ => released⟩

theorem WriteMove.ne_stopped {c : Connection} (h : WriteMove c s s') : c.writer ≠ .stopped := by
  intro hw
  cases h <;> simp_all

theorem Carries.fate {g : Nat} {c c' : Connection} (h : Carries c c')
    (before : s.connection? g = some c) (after : s'.connection? g = some c')
    (quiet : offered g a s = none) (wrote : a.writer = some g → framesWritten a s s' = []) :
    Fate g a s s' := by
  refine .kept c c' before after ?_ h.told wrote
  rw [accepted_of_quiet quiet, List.append_nil]
  exact h.mailbox

/-- Every connection goes on with its mailbox. -/
theorem fate_of_map {g : Nat} {f : Connection → Connection} (hf : ∀ c, Carries c (f c))
    (h : s'.connections = s.connections.map f) (quiet : offered g a s = none)
    (wrote : a.writer = some g → framesWritten a s s' = []) : Fate g a s s' := by
  have hmap := connection?_of_map (fun c => (hf c).generation) h g
  cases hc : s.connection? g with
  | none => exact .absent hc (by rw [hmap, hc]; rfl)
  | some c => exact (hf c).fate hc (by rw [hmap, hc]; rfl) quiet wrote

theorem Posts.fate {g : Nat} (writer : a.writer = none) (h : Posts (fun g => offered g a s) s s') :
    Fate g a s s' := by
  have hmap := connection?_of_map (f := fun c => c.getting s (offered c.generation a s))
    (fun _ => rfl) h.connections g
  cases hc : s.connection? g with
  | none => exact .absent hc (by rw [hmap, hc]; rfl)
  | some c =>
    obtain rfl := generation_of_connection? hc
    rw [hc, Option.map_some] at hmap
    refine .kept c _ hc hmap rfl id fun hw => ?_
    rw [writer] at hw
    cases hw

theorem Joins.fate {g : Nat} {key : WorkerKey} {link : Nat} (writer : a.writer = none)
    (quiet : offered g a s = none) (h : Joins key link s s') : Fate g a s s' := by
  obtain ⟨⟨t, hcarried, hconnections⟩, -⟩ := h
  obtain ⟨f, hf, hmap⟩ := hcarried.connection?
  have hsplit : s'.connection? g = (t.connection? g).or
      (if s.registry.lastGeneration + 1 = g then
        some (Connection.start s key (s.registry.lastGeneration + 1) link) else none) := by
    rw [connection?, hconnections, List.find?_append, connection?]
    by_cases hg : s.registry.lastGeneration + 1 = g <;> simp [Connection.start, hg]
  rw [hmap] at hsplit
  cases hc : s.connection? g with
  | some c =>
    rw [hc] at hsplit
    exact (hf c).fate hc hsplit quiet fun hw => by simp [writer] at hw
  | none =>
    rw [hc] at hsplit
    by_cases hg : s.registry.lastGeneration + 1 = g
    · rw [if_pos hg] at hsplit
      exact .fresh _ hc hsplit key link (by rw [hg])
    · rw [if_neg hg] at hsplit
      exact .absent hc hsplit

/-- A write loop has no hand in the connections of the others. -/
theorem WriteMove.fate {g : Nat} {c : Connection} (writer : a.writer = some c.generation)
    (found : s.connection? c.generation = some c) (h : WriteMove c s s') : Fate g a s s' := by
  by_cases hg : g = c.generation
  · subst hg
    exact .moves c found rfl writer h
  · obtain ⟨f, frames, hwrote, -⟩ := h.wrote
    obtain ⟨k, hk, hmap⟩ := hwrote.carried.connection?
    have hother := connection?_modifyConnection hwrote.generation hg s
    cases hc : s.connection? g with
    | none => exact .absent hc (by rw [hmap, hother, hc]; rfl)
    | some d =>
      refine (hk d).fate hc (by rw [hmap, hother, hc]; rfl) (offered_of_writer writer) fun hw => ?_
      rw [writer] at hw
      exact absurd (Option.some.inj hw).symm hg

theorem framesWritten_self (a : Action) (s : Server) : framesWritten a s s = [] := by
  rw [framesWritten]
  cases a.writer.bind s.connection? with
  | none => rfl
  | some c => exact come_self _

/-- **What an action makes of each connection.** -/
theorem fate_of_mailStep (h : MailStep a s s') (g : Nat) : Fate g a s s' := by
  cases h with
  | still idle quiet h =>
    obtain ⟨f, hf, hmap⟩ := h.connections
    refine fate_of_map hf hmap (quiet g) fun hw => ?_
    rcases idle with hnone | rfl
    · rw [hnone] at hw
      cases hw
    · exact framesWritten_self a s'
  | posts writer _ h => exact h.fate writer
  | joins key link writer _ quiet h => exact h.fate writer (quiet g)
  | writes c writer found h => exact h.fate writer found
  | tires c since reader found h =>
    obtain ⟨f, hf, hmap⟩ := (carried_setReader c.generation .leaving s).connections
    refine fate_of_map hf (by rw [h.result]; exact hmap) (offered_of_reader reader) fun hw => ?_
    rw [writer_of_reader reader] at hw
    cases hw

end

end Foreman.Server
