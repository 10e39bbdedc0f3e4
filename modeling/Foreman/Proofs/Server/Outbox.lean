/-
Messages from whoever sends them to the socket of their connection.

Whoever watches one connection sees messages being accepted for it, messages taken by its write
loop, and texts on its socket.  What has been accepted is what has been taken and then what
still waits, in this order; and what has been written is what has been taken, without the
messages that are too long.  Both are equations on lists, so nothing is lost, repeated or put
out of order.  Only a write that fails can cost a message, and then the write loop is at its
end.
-/
import Mathlib.Data.List.Induction
import Foreman.Proofs.Server.MailboxStep

namespace Foreman

/-- The text of a frame, if it is one of text. -/
def Server.Frame.text? : Server.Frame → Option String
  | .text t => some t
  | _ => none

/-- The texts of messages, without those that are too long. -/
def encodings (limit : Nat) (ms : List ServerMessage) : List String :=
  (ms.map fun m => m.toJson.print).filter fun t => t.utf8ByteSize ≤ limit

theorem encodings_append (limit : Nat) (ms ns : List ServerMessage) :
    encodings limit (ms ++ ns) = encodings limit ms ++ encodings limit ns := by
  simp [encodings]

/-- A message that can be sent is sent as its text. -/
theorem encodings_of_frame {limit : Nat} {m : ServerMessage} {t : String}
    (h : m.frame limit = .ok t) : encodings limit [m] = [t] := by
  rw [ServerMessage.frame, TextFrame.encode_eq] at h
  split at h
  · rename_i hle
    obtain rfl := Except.ok.inj h
    simp [encodings, hle]
  · cases h

theorem encodings_of_error {limit : Nat} {m : ServerMessage} {e : FrameError}
    (h : m.frame limit = .error e) : encodings limit [m] = [] := by
  rw [ServerMessage.frame, TextFrame.encode_eq] at h
  split at h
  · cases h
  · rename_i hlt
    simp [encodings, hlt]

namespace Server

/-! ### What can be seen of a connection -/

/-- What the actions of a run bring, one after another. -/
def collect {α : Type} (f : Action → Server → List α) : List Action → Server → List α
  | [], _ => []
  | a :: rest, s => f a s ++ collect f rest (s.act a)

theorem collect_append {α : Type} (f : Action → Server → List α) (as bs : List Action)
    (s : Server) : collect f (as ++ bs) s = collect f as s ++ collect f bs (s.after as) := by
  induction as generalizing s with
  | nil => rfl
  | cons a rest ih => simp only [List.cons_append, collect, ih, after_cons, List.append_assoc]

theorem collect_concat {α : Type} (f : Action → Server → List α) (as : List Action) (a : Action)
    (s : Server) : collect f (as ++ [a]) s = collect f as s ++ f a (s.after as) := by
  rw [collect_append, collect, collect, List.append_nil]

/-- The messages that wait for the write loop of a connection. -/
def outbox (g : Nat) (s : Server) : List ServerMessage := (s.connection? g).elim [] (·.outbox)

/-- Where the write loop of a connection stands. -/
def writer? (g : Nat) (s : Server) : Option Writer := (s.connection? g).map (·.writer)

/-- The messages that the write loop of a connection takes in an action. -/
def taken (g : Nat) (a : Action) (s : Server) : List ServerMessage :=
  if a.writer = some g then gone (s.outbox g) ((s.act a).outbox g) else []

/-- The texts that the write loop of a connection writes in an action. -/
def texts (g : Nat) (a : Action) (s : Server) : List String :=
  if a.writer = some g then (framesWritten a s (s.act a)).filterMap Frame.text? else []

/-- The write loop goes on with messages. -/
def Writer.isServing : Writer → Bool
  | idle => true
  | sending _ => true
  | _ => false

/-- The write loop of a connection takes no more messages. -/
def hasEnded (g : Nat) (s : Server) : Bool := (s.writer? g).elim false fun w => !w.isServing

/-- The write loop of a connection ends because something could not be written. -/
def writeFails (g : Nat) (a : Action) (s : Server) : Bool :=
  decide (a.writer = some g) && (s.writer? g).elim false Writer.isServing &&
    decide ((s.act a).writer? g = some .leaving)

section

variable {s : Server} {g : Nat} {c : Connection}

theorem outbox_of_found (h : s.connection? g = some c) : s.outbox g = c.outbox := by
  rw [outbox, h]
  rfl

theorem writer?_of_found (h : s.connection? g = some c) : s.writer? g = some c.writer := by
  rw [writer?, h]
  rfl

theorem hasEnded_of_found (h : s.connection? g = some c) : s.hasEnded g = !c.writer.isServing := by
  rw [hasEnded, writer?_of_found h]
  rfl

theorem outbox_of_absent (h : s.connection? g = none) : s.outbox g = [] := by
  rw [outbox, h]
  rfl

/-- A connection that was never registered is offered nothing that it could accept. -/
theorem accepted_of_absent (h : s.connection? g = none) (a : Action) : accepted g a s = [] := by
  simp [accepted, gets, answer, h]

theorem texts_of_absent (h : s.connection? g = none) (a : Action) : texts g a s = [] := by
  unfold texts
  split
  · rename_i writer
    simp [framesWritten, writer, h]
  · rfl

theorem accepted_of_writer {a : Action} (writer : a.writer = some g) : accepted g a s = [] :=
  accepted_of_quiet (offered_of_writer writer)

/-- One message at most is accepted at a time, and only while there is room. -/
theorem length_accepted (found : s.connection? g = some c) (a : Action) :
    accepted g a s = [] ∨ (accepted g a s).length ≤ 1 ∧
      c.outbox.length < max 1 s.hub.outboundCapacity := by
  unfold accepted gets
  split
  · rename_i haccepts
    rw [answer, found] at haccepts
    right
    refine ⟨by cases offered g a s <;> simp, ?_⟩
    simp only [Option.elim, Connection.offer] at haccepts
    split at haccepts
    · cases haccepts
    · split at haccepts
      · rename_i hroom
        exact hroom
      · cases haccepts
  · exact .inl rfl

end

/-! ### One action -/

/-- What an action does to the messages of the connection with a number. -/
structure Forwards (g : Nat) (a : Action) (s : Server) : Prop where
  /-- Whatever was there or was accepted has been taken or is there. -/
  balance : s.outbox g ++ accepted g a s = taken g a s ++ (s.act a).outbox g
  room : (s.outbox g).length ≤ max 1 s.hub.outboundCapacity →
    ((s.act a).outbox g).length ≤ max 1 s.hub.outboundCapacity
  /-- What is taken is written, unless the write fails. -/
  wrote : texts g a s = encodings s.hub.maxFrameBytes (taken g a s) ∨
    texts g a s = [] ∧ (taken g a s).length ≤ 1 ∧ writeFails g a s = true
  /-- Once the write loop is at its end, nothing is taken or written any more. -/
  ended : s.hasEnded g = true →
    (s.act a).hasEnded g = true ∧ taken g a s = [] ∧ texts g a s = []

section

variable {g : Nat} {a : Action} {s s' : Server}

/-- A connection that joins, or is not there. -/
theorem forwards_of_absent (before : s.connection? g = none) (after : (s.act a).outbox g = []) :
    Forwards g a s := by
  have htaken : taken g a s = [] := by
    unfold taken
    simp [outbox_of_absent before, after, gone]
  have htexts := texts_of_absent before a
  refine ⟨?_, ?_, .inl ?_, ?_⟩
  · rw [outbox_of_absent before, accepted_of_absent before, htaken, after]
  · rw [after]
    exact fun _ => Nat.zero_le _
  · rw [htexts, htaken]
    rfl
  · intro h
    simp [hasEnded, writer?, before] at h

theorem forwards_of_kept {c c' : Connection} (before : s.connection? g = some c)
    (after : (s.act a).connection? g = some c')
    (mailbox : c'.mailbox = { c.mailbox with outbox := c.outbox ++ accepted g a s })
    (wrote : a.writer = some g → framesWritten a s (s.act a) = []) : Forwards g a s := by
  have houtbox : (s.act a).outbox g = s.outbox g ++ accepted g a s := by
    rw [outbox_of_found before, outbox_of_found after]
    exact congrArg Mailbox.outbox mailbox
  have hwriter : c'.writer = c.writer := congrArg Mailbox.writer mailbox
  have htaken : taken g a s = [] := by
    unfold taken
    rw [houtbox]
    split
    · simp [gone]
    · rfl
  have htexts : texts g a s = [] := by
    unfold texts
    split
    · rename_i writer
      rw [wrote writer]
      rfl
    · rfl
  refine ⟨?_, ?_, .inl ?_, ?_⟩
  · rw [htaken, houtbox]
    rfl
  · intro hroom
    rw [houtbox, List.length_append]
    rw [outbox_of_found before] at hroom ⊢
    rcases length_accepted before a with hnone | ⟨hone, hfree⟩
    · rw [hnone]
      exact hroom
    · omega
  · rw [htexts, htaken]
    rfl
  · rw [hasEnded_of_found before, hasEnded_of_found after, hwriter]
    exact fun h => ⟨h, htaken, htexts⟩

theorem Wrote.found {c : Connection} {f : Connection → Connection} {frames : List Frame}
    (found : s.connection? c.generation = some c) (h : Wrote c f frames s s') :
    ∃ c', s'.connection? c.generation = some c' ∧ Carries (f c) c' :=
  h.carried.found (connection?_modified h.generation found)

/-- What can be seen of a step of a write loop. -/
theorem Wrote.seen {c : Connection} {f : Connection → Connection} {frames : List Frame}
    (found : s.connection? c.generation = some c) (writer : a.writer = some c.generation)
    (h : Wrote c f frames s (s.act a)) :
    (s.act a).outbox c.generation = (f c).outbox ∧
      (s.act a).writer? c.generation = some (f c).writer ∧
      taken c.generation a s = gone c.outbox (f c).outbox ∧
      texts c.generation a s = frames.filterMap Frame.text? := by
  obtain ⟨c', after, hcarries⟩ := h.found found
  have houtbox : (s.act a).outbox c.generation = (f c).outbox :=
    (outbox_of_found after).trans hcarries.outbox
  refine ⟨houtbox, ?_, ?_, ?_⟩
  · rw [writer?_of_found after, hcarries.writer]
  · rw [taken, if_pos writer, outbox_of_found found, houtbox]
  · rw [texts, if_pos writer, framesWritten, writer, Option.bind_some, found]
    exact congrArg (List.filterMap Frame.text?) h.frames

/-- A step of a write loop that leaves the messages alone and writes no text. -/
theorem forwards_of_wrote {c : Connection} {f : Connection → Connection} {frames : List Frame}
    (found : s.connection? c.generation = some c) (writer : a.writer = some c.generation)
    (h : Wrote c f frames s (s.act a)) (outbox : (f c).outbox = c.outbox)
    (silent : frames.filterMap Frame.text? = [])
    (ended : c.writer.isServing = false → (f c).writer.isServing = false) :
    Forwards c.generation a s := by
  obtain ⟨houtbox, hwriter, htaken, htexts⟩ := h.seen found writer
  rw [outbox] at houtbox htaken
  rw [gone_self] at htaken
  rw [silent] at htexts
  have hbefore := outbox_of_found found
  refine ⟨?_, ?_, .inl ?_, ?_⟩
  · rw [htaken, houtbox, hbefore, accepted_of_writer writer, List.append_nil]
    rfl
  · rw [houtbox, hbefore]
    exact id
  · rw [htaken, htexts]
    rfl
  · rw [hasEnded_of_found found, hasEnded, hwriter]
    intro h
    exact ⟨by simpa using ended (by simpa using h), htaken, htexts⟩

/-- A step of a write loop that takes the message `m`. -/
theorem forwards_of_taken {c : Connection} {f : Connection → Connection} {frames : List Frame}
    {m : ServerMessage} (found : s.connection? c.generation = some c)
    (writer : a.writer = some c.generation) (h : Wrote c f frames s (s.act a))
    (idle : c.writer = .idle) (held : c.outbox = m :: (f c).outbox)
    (wrote : frames.filterMap Frame.text? = encodings s.hub.maxFrameBytes [m] ∨
      frames = [] ∧ (f c).writer = .leaving) : Forwards c.generation a s := by
  obtain ⟨houtbox, hwriter, htaken, htexts⟩ := h.seen found writer
  have hone : taken c.generation a s = [m] := by
    rw [htaken, held]
    exact gone_append [m] _
  have hbefore : s.outbox c.generation = m :: (f c).outbox := (outbox_of_found found).trans held
  refine ⟨?_, ?_, ?_, ?_⟩
  · rw [hone, houtbox, hbefore, accepted_of_writer writer, List.append_nil]
    rfl
  · rw [houtbox, hbefore, List.length_cons]
    omega
  · rw [hone, htexts]
    refine wrote.imp id ?_
    rintro ⟨rfl, hleaving⟩
    rw [hleaving] at hwriter
    refine ⟨rfl, Nat.le_refl 1, ?_⟩
    simp [writeFails, writer, hwriter, writer?_of_found found, idle, Writer.isServing]
  · rw [hasEnded_of_found found, idle]
    simp [Writer.isServing]

theorem forwards_of_move {c : Connection} (found : s.connection? c.generation = some c)
    (writer : a.writer = some c.generation) (h : WriteMove c s (s.act a)) :
    Forwards c.generation a s := by
  cases h with
  | closes w frames idle told next h =>
    refine forwards_of_wrote found writer h rfl ?_ fun hended => ?_
    · rcases next with ⟨-, rfl⟩ | ⟨-, rfl⟩ <;> rfl
    · simp [idle, Writer.isServing] at hended
  | pings w frames idle due sends h =>
    refine forwards_of_wrote found writer h rfl ?_ fun hended => ?_
    · cases sends <;> rfl
    · simp [idle, Writer.isServing] at hended
  | takes m rest text w frames idle held fits sends h =>
    refine forwards_of_taken found writer h idle held ?_
    cases sends with
    | written => exact .inl (encodings_of_frame fits).symm
    | failed => exact .inr ⟨rfl, rfl⟩
  | skips m rest e idle held tooLong h =>
    have hwrote : Wrote c (fun d => { d with outbox := rest }) [] s (s.act a) :=
      h ▸ wrote_skip rest _
    exact forwards_of_taken found writer hwrote idle held (.inl (encodings_of_error tooLong).symm)
  | finishes isText w sending next h =>
    refine forwards_of_wrote found writer h rfl rfl fun hended => ?_
    simp [sending, Writer.isServing] at hended
  | closed untilMs closing h => exact forwards_of_wrote found writer h rfl rfl fun _ => rfl
  | leaves leaving released h => exact forwards_of_wrote found writer h rfl rfl fun _ => rfl

/-- **What an action does to the messages of a connection.** -/
theorem forwards_act (hosted : Hosted s) (g : Nat) (a : Action) : Forwards g a s := by
  cases fate_of_mailStep (mailStep_act hosted a) g with
  | absent before after => exact forwards_of_absent before (outbox_of_absent after)
  | fresh c' before after key link h =>
    refine forwards_of_absent before ((outbox_of_found after).trans ?_)
    rw [h]
    rfl
  | kept c c' before after mailbox _ wrote => exact forwards_of_kept before after mailbox wrote
  | moves c before generation writer h =>
    subst generation
    exact forwards_of_move before writer h

end

/-! ### Runs -/

/-- What some actions have done to the messages of the connection with a number. -/
structure Forwarded (g : Nat) (actions : List Action) (s₀ : Server) : Prop where
  balance : collect (accepted g) actions s₀ =
    collect (taken g) actions s₀ ++ (s₀.after actions).outbox g
  room : ((s₀.after actions).outbox g).length ≤ max 1 s₀.hub.outboundCapacity
  /-- What was taken was written, but for one message at most, which a failed write has cost. -/
  wrote : ∃ lost, encodings s₀.hub.maxFrameBytes (collect (taken g) actions s₀) =
      collect (texts g) actions s₀ ++ lost ∧
    (lost ≠ [] → (s₀.after actions).hasEnded g = true ∧
      ∃ before a rest, actions = before ++ a :: rest ∧
        writeFails g a (s₀.after before) = true)

section

variable {g : Nat} {s₀ s : Server}

theorem forwarded_nil (hc : s₀.connections = []) : Forwarded g [] s₀ := by
  have hbefore : s₀.connection? g = none := by simp [connection?, hc]
  have hempty : s₀.outbox g = [] := outbox_of_absent hbefore
  refine ⟨hempty.symm, ?_, [], rfl, fun h => absurd rfl h⟩
  rw [after_nil, hempty]
  exact Nat.zero_le _

theorem hasEnded_of_writeFails {a : Action} (h : writeFails g a s = true) :
    (s.act a).hasEnded g = true := by
  simp only [writeFails, Bool.and_eq_true, decide_eq_true_eq] at h
  rw [hasEnded, h.2]
  rfl

theorem Forwarded.concat {actions : List Action} {a : Action} (hosted₀ : Hosted s₀)
    (ok : Forwarded g actions s₀) : Forwarded g (actions ++ [a]) s₀ := by
  have hosted : Hosted (s₀.after actions) :=
    after_induction (fun b _ h => hosted_act b h) hosted₀ actions
  have hhub := hub_after hosted₀ actions
  have hafter : s₀.after (actions ++ [a]) = (s₀.after actions).act a := after_append _ _ _
  have hstep := forwards_act hosted g a
  obtain ⟨lost, hlost, hended⟩ := ok.wrote
  refine ⟨?_, ?_, ?_⟩
  · rw [collect_concat, collect_concat, hafter, ok.balance, List.append_assoc, hstep.balance,
      List.append_assoc]
  · have hroom := hstep.room
    rw [hhub] at hroom
    rw [hafter]
    exact hroom ok.room
  · have hwrote := hstep.wrote
    rw [hhub] at hwrote
    rw [collect_concat, collect_concat, encodings_append, hlost, hafter]
    by_cases hl : lost = []
    · subst hl
      rw [List.append_nil]
      rcases hwrote with hsent | ⟨hnone, -, hfails⟩
      · exact ⟨[], by rw [hsent, List.append_nil], fun h => absurd rfl h⟩
      · refine ⟨encodings s₀.hub.maxFrameBytes (taken g a (s₀.after actions)), ?_, fun _ => ?_⟩
        · rw [hnone, List.append_nil]
        · exact ⟨hasEnded_of_writeFails hfails, actions, a, [], rfl, hfails⟩
    · obtain ⟨hend, before, b, rest, hsplit, hfails⟩ := hended hl
      obtain ⟨hstill, htaken, htexts⟩ := hstep.ended hend
      refine ⟨lost, by rw [htaken, htexts]; simp [encodings], fun _ => ⟨hstill, ?_⟩⟩
      exact ⟨before, b, rest ++ [a], by rw [hsplit]; simp, hfails⟩

theorem forwarded_after (hosted₀ : Hosted s₀) (hc : s₀.connections = []) (g : Nat)
    (actions : List Action) : Forwarded g actions s₀ := by
  induction actions using List.reverseRecOn with
  | nil => exact forwarded_nil hc
  | append_singleton as a ih => exact ih.concat hosted₀

/-- A write loop that is at its end stays there. -/
theorem ended_after (hosted : Hosted s) (h : s.hasEnded g = true) (more : List Action) :
    collect (taken g) more s = [] ∧ collect (texts g) more s = [] := by
  induction more generalizing s with
  | nil => exact ⟨rfl, rfl⟩
  | cons a rest ih =>
    obtain ⟨hstill, htaken, htexts⟩ := (forwards_act hosted g a).ended h
    obtain ⟨hlater, hsilent⟩ := ih (hosted_act a hosted) hstill
    rw [collect, collect, htaken, htexts, hlater, hsilent]
    exact ⟨rfl, rfl⟩

/-- A write loop that has stopped accepts nothing, and does not begin again. -/
theorem stopped_act (hosted : Hosted s) (h : s.writer? g = some .stopped) (a : Action) :
    accepted g a s = [] ∧ (s.act a).writer? g = some .stopped := by
  obtain ⟨c, hc, hw⟩ := Option.map_eq_some_iff.mp h
  constructor
  · have hanswer : s.answer g ≠ .accepted := by
      rw [answer, hc]
      simp [Connection.offer, hw]
    exact if_neg hanswer
  · cases fate_of_mailStep (mailStep_act hosted a) g with
    | absent before _ => simp [before] at hc
    | fresh c' before _ _ _ _ => simp [before] at hc
    | kept d c' before after mailbox _ _ =>
      obtain rfl := Option.some.inj (hc.symm.trans before)
      have hwriter : c'.writer = c.writer := congrArg Mailbox.writer mailbox
      rw [writer?_of_found after, hwriter, hw]
    | moves d before _ _ h =>
      obtain rfl := Option.some.inj (hc.symm.trans before)
      exact absurd hw h.ne_stopped

theorem stopped_after (hosted : Hosted s) (h : s.writer? g = some .stopped) (more : List Action) :
    collect (accepted g) more s = [] := by
  induction more generalizing s with
  | nil => rfl
  | cons a rest ih =>
    obtain ⟨haccepted, hstill⟩ := stopped_act hosted h a
    rw [collect, haccepted, ih (hosted_act a hosted) hstill]
    rfl

/-! ### Who is live is served -/

/-- A write loop stops only after its connection was told to. -/
def Heeded (s : Server) : Prop :=
  ∀ g c, s.connection? g = some c → c.writer = .stopped → c.shutdown = true

theorem heeded_start (hc : s₀.connections = []) : Heeded s₀ := by
  intro g c h
  simp [connection?, hc] at h

/-- A connection that does not hold its key has been told to stop. -/
theorem shutdown_of_not_live (hosted : Hosted s) {c : Connection} (hc : c ∈ s.connections)
    (h : s.registry.find c.key ≠ some c.generation) : c.shutdown = true := by
  have hsignals : c.stopSignals = if s.registry.find c.key = some c.generation then 0 else 1 :=
    hosted.tended.signals c.standing (List.mem_map_of_mem hc)
  rw [if_neg h] at hsignals
  simp [Connection.shutdown, hsignals]

theorem heeded_act (hosted : Hosted s) (ok : Heeded s) (a : Action) : Heeded (s.act a) := by
  intro g c' hc' hstopped
  cases fate_of_mailStep (mailStep_act hosted a) g with
  | absent _ after => simp [after] at hc'
  | fresh d _ after key link h =>
    obtain rfl := Option.some.inj (after.symm.trans hc')
    rw [h] at hstopped
    cases hstopped
  | kept c d before after mailbox told _ =>
    obtain rfl := Option.some.inj (after.symm.trans hc')
    have hwriter : d.writer = c.writer := congrArg Mailbox.writer mailbox
    exact told (ok g c before (hwriter ▸ hstopped))
  | moves c before generation _ h =>
    obtain ⟨f, frames, hwrote, hreleased⟩ := h.wrote
    rw [← generation] at before hc'
    obtain ⟨d, after, hcarries⟩ := hwrote.found before
    obtain rfl := Option.some.inj (after.symm.trans hc')
    refine shutdown_of_not_live (hosted_act a hosted) (List.mem_of_find?_eq_some after) ?_
    have hkey : d.key = c.key := hcarries.key.trans (congrArg Member.key (hwrote.member c))
    rw [hkey, generation_of_connection? after]
    exact hreleased (hcarries.writer ▸ hstopped)

/-- The connection that holds a key takes messages as long as there is room. -/
theorem answer_of_live (hosted : Hosted s) (heeded : Heeded s) {key : WorkerKey}
    (h : s.registry.find key = some g) :
    s.answer g =
      if (s.outbox g).length < max 1 s.hub.outboundCapacity then .accepted else .full := by
  obtain ⟨x, hx, rfl, rfl⟩ := hosted.tended.held key g h
  obtain ⟨c, hc, rfl⟩ := hosted.tended.connection?_eq hx
  have hrunning : c.writer ≠ .stopped := by
    intro hstopped
    have htold : c.shutdown = true := heeded _ c hc hstopped
    have hsignals := hosted.tended.signals c.standing hx
    rw [if_pos h] at hsignals
    rw [Connection.shutdown, show c.stopSignals = 0 from hsignals] at htold
    cases htold
  rw [answer, hc, outbox_of_found hc]
  exact if_neg hrunning

theorem live_of_offered {a : Action} {m : ServerMessage} (hosted : Hosted s)
    (h : offered g a s = some m) : ∃ key, s.registry.find key = some g := by
  unfold offered at h
  split at h
  · rename_i key _
    split at h
    · rename_i hfind
      exact ⟨key, hfind⟩
    · cases h
  · split at h
    · rename_i hlive
      obtain ⟨⟨key, k⟩, hkey, rfl⟩ := List.mem_map.mp hlive
      exact ⟨key, (Registry.find_eq_some hosted.tended.keys).mpr hkey⟩
    · cases h
  · split at h
    · obtain ⟨r, hr, -⟩ := Option.map_eq_some_iff.mp h
      exact ⟨r.target, of_decide_eq_true (Option.filter_eq_some_iff.mp hr).2⟩
    · cases h
  · cases h

/-- What is offered to a connection is refused exactly if its queue is full. -/
theorem refuses_iff (hosted : Hosted s) (heeded : Heeded s)
    (room : (s.outbox g).length ≤ max 1 s.hub.outboundCapacity) (a : Action) :
    s.refuses (offered g a s) g =
      ((offered g a s).isSome && decide ((s.outbox g).length = max 1 s.hub.outboundCapacity)) := by
  cases hoffer : offered g a s with
  | none => rfl
  | some m =>
    obtain ⟨key, hkey⟩ := live_of_offered hosted hoffer
    have hanswer := answer_of_live hosted heeded hkey
    rw [refuses, hanswer]
    by_cases hroom : (s.outbox g).length < max 1 s.hub.outboundCapacity
    · simp [hroom, Nat.ne_of_lt hroom]
    · have hfull : (s.outbox g).length = max 1 s.hub.outboundCapacity := by omega
      simp [hfull]

theorem dropped_act (hosted : Hosted s) (a : Action) :
    (s.act a).tally.get .outboundDropped = s.tally.get .outboundDropped +
      s.connections.countP fun c => s.refuses (offered c.generation a s) c.generation := by
  have hquiet (h : ∀ g, offered g a s = none) :
      s.connections.countP (fun c => s.refuses (offered c.generation a s) c.generation) = 0 := by
    simp [h, refuses]
  cases mailStep_act hosted a with
  | still _ quiet h => rw [hquiet quiet, h.losses _ rfl, Nat.add_zero]
  | posts _ _ h => exact h.dropped
  | joins key link _ _ quiet h => rw [hquiet quiet, h.losses _ rfl, Nat.add_zero]
  | writes c writer _ h =>
    obtain ⟨f, frames, hwrote, -⟩ := h.wrote
    rw [hquiet fun _ => offered_of_writer writer, hwrote.carried.losses _ rfl]
    rfl
  | tires c since reader _ h =>
    rw [hquiet fun _ => offered_of_reader reader, h.result]
    exact Tally.get_add .keepaliveTimeouts .outboundDropped 1 s.tally

theorem outbox_of_full (hosted : Hosted s) (heeded : Heeded s) {a : Action}
    (offers : (offered g a s).isSome = true)
    (full : (s.outbox g).length = max 1 s.hub.outboundCapacity) :
    (s.act a).outbox g = s.outbox g := by
  obtain ⟨m, hm⟩ := Option.isSome_iff_exists.mp offers
  obtain ⟨key, hkey⟩ := live_of_offered hosted hm
  have hanswer := answer_of_live hosted heeded hkey
  rw [if_neg (by omega)] at hanswer
  have haccepted : accepted g a s = [] := if_neg (by simp [hanswer])
  have htaken : taken g a s = [] := by
    refine if_neg fun writer => ?_
    rw [offered_of_writer writer] at hm
    cases hm
  have hbalance := (forwards_act hosted g a).balance
  rw [haccepted, htaken, List.append_nil] at hbalance
  exact hbalance.symm

theorem sendTo_iff (hosted : Hosted s) (heeded : Heeded s) (key : WorkerKey) (m : ServerMessage) :
    (s.sendTo key m).1 = true ↔ ∃ g, s.registry.find key = some g ∧
      (s.outbox g).length < max 1 s.hub.outboundCapacity := by
  rw [sendTo_eq]
  cases hfind : s.registry.find key with
  | none => simp
  | some g =>
    have hanswer := answer_of_live hosted heeded hfind
    have hroom : s.answer g = .accepted ↔ (s.outbox g).length < max 1 s.hub.outboundCapacity := by
      rw [hanswer]
      split <;> simp_all
    simp only [decide_eq_true_eq, hroom, Option.some.injEq, exists_eq_left']

theorem sendTo_of_full (hosted : Hosted s) (heeded : Heeded s) {key : WorkerKey}
    (live : s.registry.find key = some g)
    (full : (s.outbox g).length = max 1 s.hub.outboundCapacity) (m : ServerMessage) :
    s.sendTo key m = (false, s.bump .outboundDropped) := by
  have hanswer := answer_of_live hosted heeded live
  rw [if_neg (by omega)] at hanswer
  rw [sendTo_eq, live]
  simp [hanswer]

theorem accepted_sendTo (key : WorkerKey) (m : ServerMessage) (g : Nat) (s : Server) :
    accepted g (.sendTo key m) s =
      if s.registry.find key = some g ∧ (s.sendTo key m).1 = true then [m] else [] := by
  rw [accepted, offered, gets, sendTo_eq]
  by_cases hfind : s.registry.find key = some g
  · simp [hfind]
  · simp [hfind]

theorem takes_of_live (hosted : Hosted s) (heeded : Heeded s) {c : Connection}
    (hc : c ∈ s.connections) : s.takes c =
      (s.isLive c && decide (c.outbox.length < max 1 s.hub.outboundCapacity)) := by
  by_cases hlive : s.isLive c = true
  · have hanswer := answer_of_live hosted heeded (of_decide_eq_true hlive)
    rw [answer_of_mem hosted hc, outbox_of_found (connection?_of_mem hosted hc)] at hanswer
    rw [takes, hanswer, hlive]
    split <;> simp_all
  · rw [Bool.not_eq_true] at hlive
    rw [takes, hlive]
    rfl

theorem accepted_broadcast (hosted : Hosted s) {c : Connection} (hc : c ∈ s.connections)
    (m : ServerMessage) :
    accepted c.generation (.broadcast m) s = if s.takes c then [m] else [] := by
  have htakes := takes_iff hosted hc
  rw [accepted, offered, gets, answer_of_mem hosted hc]
  by_cases hlive : c.generation ∈ s.registry.live.map (·.2)
  · by_cases hoffer : c.offer s.hub = .accepted
    · rw [if_pos hoffer, if_pos hlive, if_pos (htakes.mpr ⟨hlive, hoffer⟩)]
      rfl
    · rw [if_neg hoffer, if_neg fun h => hoffer (htakes.mp h).2]
  · rw [if_neg hlive, if_neg fun h => hlive (htakes.mp h).1]
    exact ite_self _

/-- A message that is too long ends nothing: the write loop reports it and goes on. -/
theorem act_of_tooLong (hosted : Hosted s) {a : Action} {c : Connection} {m : ServerMessage}
    (found : s.connection? c.generation = some c) (writer : a.writer = some c.generation)
    (takes : taken c.generation a s = [m])
    (tooLong : s.hub.maxFrameBytes < m.toJson.print.utf8ByteSize) :
    s.act a = (s.modifyConnection c.generation fun d => { d with outbox := c.outbox.drop 1 }).note
      (.encodingFailed c.key) := by
  have hsame {f : Connection → Connection} {frames : List Frame}
      (h : Wrote c f frames s (s.act a)) (houtbox : (f c).outbox = c.outbox) : False := by
    rw [(h.seen found writer).2.2.1, houtbox, gone_self] at takes
    cases takes
  cases mailStep_act hosted a with
  | writes d hwriter hfound h =>
    have hcd : d.generation = c.generation := Option.some.inj (hwriter.symm.trans writer)
    obtain rfl : d = c := Option.some.inj (hfound.symm.trans (hcd ▸ found))
    cases h with
    | closes w frames _ _ _ h => exact (hsame h rfl).elim
    | pings w frames _ _ _ h => exact (hsame h rfl).elim
    | takes n rest text w frames _ held fits _ h =>
      rw [(h.seen found writer).2.2.1, held, show n :: rest = [n] ++ rest from rfl,
        gone_append] at takes
      obtain rfl := List.singleton_inj.mp takes
      rw [ServerMessage.frame, TextFrame.encode_eq, if_neg (by omega)] at fits
      cases fits
    | skips n rest e _ held _ h => rw [h, held, List.drop_one, List.tail_cons]
    | finishes isText w _ _ h => exact (hsame h rfl).elim
    | closed untilMs _ h => exact (hsame h rfl).elim
    | leaves _ _ h => exact (hsame h rfl).elim
  | still idle _ _ =>
    rcases idle with hnone | hsame
    · simp [hnone] at writer
    · simp [taken, hsame] at takes
  | posts hnone _ _ => simp [hnone] at writer
  | joins _ _ hnone _ _ _ => simp [hnone] at writer
  | tires d since reader _ _ => simp [writer_of_reader reader] at writer

/-- A write loop that has nothing else to do takes the message that has waited longest. -/
theorem taken_of_idle {c : Connection} {l : Link} {m : ServerMessage}
    {rest : List ServerMessage} (found : s.connection? c.generation = some c)
    (link : s.link? c.link = some l) (idle : c.writer = .idle) (untold : c.shutdown = false)
    (early : s.clock.monoMs < c.nextPingMs) (held : c.outbox = m :: rest) :
    taken c.generation (.step (.writer c.generation)) s = [m] := by
  have hact : s.act (.step (.writer c.generation)) =
      (s.modifyConnection c.generation fun d => { d with outbox := rest }).sendMessage c l m := by
    rw [act, step, writeStep_eq, found, Option.bind_some, writeAs, link, Option.bind_some, idle]
    simp [writeIdle, untold, Nat.not_le.mpr early, held]
  have hmove := writeMove_message idle held link
  rw [← hact] at hmove
  have hfirst {f : Connection → Connection} {frames : List Frame} {n : ServerMessage}
      (h : Wrote c f frames s (s.act (.step (.writer c.generation))))
      (hn : c.outbox = n :: (f c).outbox) :
      taken c.generation (.step (.writer c.generation)) s = [m] := by
    have hsame : n = m := (List.cons.inj (hn.symm.trans held)).1
    rw [(h.seen found rfl).2.2.1, hn, hsame]
    exact gone_append [m] _
  cases hmove with
  | closes w frames _ told _ _ => simp [untold] at told
  | pings w frames _ due _ _ => omega
  | takes n others text w frames _ hn _ _ h => exact hfirst h hn
  | skips n others e _ hn _ h =>
    have hwrote : Wrote c (fun d => { d with outbox := others }) [] s
        (s.act (.step (.writer c.generation))) := h ▸ wrote_skip others _
    exact hfirst hwrote hn
  | finishes isText w sending _ _ => simp [idle] at sending
  | closed untilMs closing _ => simp [idle] at closing
  | leaves leaving _ _ => simp [idle] at leaving

end

/--
**Messages go out in the order in which they were accepted.**  After any run, whatever the
callers, the loops and the workers have done in it, and for every connection:

  * a message for a key is accepted exactly if the key is live and there is room in the queue of
    the connection that holds it, and then it is that connection that gets it; a broadcast is
    accepted by the live connections that have room;
  * the queue is never longer than its room;
  * the messages accepted are those taken by the write loop, followed by those that still wait;
  * the texts written are the texts of the messages taken, without those that are too long, unless
    a write failed, and then they are the first of them;
  * a message that is too long is reported, and nothing else comes of it;
  * once the write loop is at its end nothing more is taken, and once it has stopped nothing
    more is accepted; and as long as it has nothing else to do, it takes the next message at its
    next step;
  * a connection whose queue is full keeps it as it is, and each message that it refuses is
    counted once.
-/
theorem messages_sent_in_order (hub : HubSettings) (payout : Payout) (capacity : Nat)
    (store : Store) (clock : Clock) (consumer : Option Stage) (actions : List Action) :
    let s₀ : Server := { start hub payout capacity store clock with aggregator := consumer }
    let s := s₀.after actions
    let room := max 1 hub.outboundCapacity
    ((∀ key m, (s.sendTo key m).1 = true ↔
        ∃ g, s.registry.find key = some g ∧ (s.outbox g).length < room) ∧
      (∀ key m g, accepted g (.sendTo key m) s =
        if s.registry.find key = some g ∧ (s.sendTo key m).1 = true then [m] else []) ∧
      (∀ m, (s.broadcast m).1 =
        s.connections.countP fun c => s.isLive c && decide (c.outbox.length < room)) ∧
      ∀ m, ∀ c ∈ s.connections, accepted c.generation (.broadcast m) s =
        if s.isLive c && decide (c.outbox.length < room) then [m] else []) ∧
    (∀ g, (s.outbox g).length ≤ room) ∧
    (∀ g, collect (accepted g) actions s₀ = collect (taken g) actions s₀ ++ s.outbox g) ∧
    (∀ g, collect (texts g) actions s₀ <+:
        encodings hub.maxFrameBytes (collect (taken g) actions s₀) ∧
      ((∀ before a rest, actions = before ++ a :: rest →
          writeFails g a (s₀.after before) = false) →
        collect (texts g) actions s₀ =
          encodings hub.maxFrameBytes (collect (taken g) actions s₀))) ∧
    (∀ a c m, s.connection? c.generation = some c → a.writer = some c.generation →
      taken c.generation a s = [m] → hub.maxFrameBytes < m.toJson.print.utf8ByteSize →
        s.act a = (s.modifyConnection c.generation fun d =>
          { d with outbox := c.outbox.drop 1 }).note (.encodingFailed c.key)) ∧
    ((∀ g more, s.hasEnded g = true →
        collect (taken g) (actions ++ more) s₀ = collect (taken g) actions s₀ ∧
          collect (texts g) (actions ++ more) s₀ = collect (texts g) actions s₀) ∧
      (∀ g more, s.writer? g = some .stopped →
        collect (accepted g) (actions ++ more) s₀ = collect (accepted g) actions s₀) ∧
      ∀ c l m rest, s.connection? c.generation = some c → s.link? c.link = some l →
        c.writer = .idle → c.shutdown = false → s.clock.monoMs < c.nextPingMs →
        c.outbox = m :: rest → taken c.generation (.step (.writer c.generation)) s = [m]) ∧
    (∀ key m g, s.registry.find key = some g → (s.outbox g).length = room →
      s.sendTo key m = (false, s.bump .outboundDropped)) ∧
    ∀ a, (s.act a).tally.get .outboundDropped = s.tally.get .outboundDropped +
        s.connections.countP (fun c =>
          (offered c.generation a s).isSome && decide (c.outbox.length = room)) ∧
      ∀ g, (offered g a s).isSome = true → (s.outbox g).length = room →
        (s.act a).outbox g = s.outbox g := by
  intro s₀ s room
  have hosted₀ : Hosted s₀ := hosted_after rfl rfl []
  have hosted : Hosted s := hosted_after rfl rfl actions
  have heeded : Heeded s :=
    hosted₀.after_induction (fun a _ h ok => heeded_act h ok a) (heeded_start rfl) actions
  have hhub : s.hub = hub := hub_after hosted₀ actions
  have hroom : max 1 s.hub.outboundCapacity = room := by rw [hhub]
  have ok (g : Nat) : Forwarded g actions s₀ := forwarded_after hosted₀ rfl g actions
  have htakes : ∀ c ∈ s.connections,
      s.takes c = (s.isLive c && decide (c.outbox.length < room)) := by
    intro c hc
    rw [takes_of_live hosted heeded hc, hroom]
  refine ⟨⟨?_, ?_, ?_, ?_⟩, fun g => (ok g).room, fun g => (ok g).balance, fun g => ⟨?_, ?_⟩, ?_,
    ⟨?_, ?_, ?_⟩, ?_, fun a => ⟨?_, ?_⟩⟩
  · intro key m
    rw [← hroom]
    exact sendTo_iff hosted heeded key m
  · exact fun key m g => accepted_sendTo key m g s
  · intro m
    rw [(spread_broadcast hosted m).accepted]
    exact List.countP_congr fun c hc => by rw [htakes c hc]
  · intro m c hc
    rw [← htakes c hc]
    exact accepted_broadcast hosted hc m
  · obtain ⟨lost, hlost, -⟩ := (ok g).wrote
    exact ⟨lost, hlost.symm⟩
  · intro intact
    obtain ⟨lost, hlost, hfailed⟩ := (ok g).wrote
    by_cases hl : lost = []
    · rw [hl, List.append_nil] at hlost
      exact hlost.symm
    · obtain ⟨-, before, a, rest, hsplit, hfails⟩ := hfailed hl
      rw [intact before a rest hsplit] at hfails
      cases hfails
  · intro a c m found writer htaken hlong
    exact act_of_tooLong hosted found writer htaken (hhub ▸ hlong)
  · intro g more hended
    obtain ⟨htaken, htexts⟩ := ended_after hosted hended more
    exact ⟨by rw [collect_append, htaken, List.append_nil],
      by rw [collect_append, htexts, List.append_nil]⟩
  · intro g more hstopped
    rw [collect_append, stopped_after hosted hstopped, List.append_nil]
  · intro c l m rest found link idle untold early held
    exact taken_of_idle found link idle untold early held
  · intro key m g live full
    exact sendTo_of_full hosted heeded live (full.trans hroom.symm) m
  · rw [dropped_act hosted a]
    refine congrArg _ (List.countP_congr fun c hc => ?_)
    have hbox := outbox_of_found (connection?_of_mem hosted hc)
    have hle := (ok c.generation).room
    rw [refuses_iff hosted heeded (hroom ▸ hle), hbox, hroom]
  · intro g offers full
    exact outbox_of_full hosted heeded offers (full.trans hroom.symm)

/-- The second message finds no room, and the third is too long: the first is written. -/
example :
    let short := ServerMessage.rewardEarned ⟨"hash", ⟨2⟩, 1, 5⟩
    let long := ServerMessage.rewardEarned ⟨"a hash that takes more room", ⟨2⟩, 1, 5⟩
    let writes := Action.step (.writer 1)
    let actions := [.connect { room := 1000 }, .register ⟨"a"⟩ 0, .sendTo ⟨"a"⟩ short,
      .sendTo ⟨"a"⟩ long, writes, .sendTo ⟨"a"⟩ long, writes, writes]
    let s := start { outboundCapacity := 0, maxFrameBytes := 140 } {} 1 (.memory {}) (.atMs 0)
    collect (accepted 1) actions s = [short, long] ∧ collect (taken 1) actions s = [short, long] ∧
      collect (texts 1) actions s = [short.toJson.print] ∧
      (s.after actions).tally.get .outboundDropped = 1 := by
  decide +kernel

end Server

end Foreman
