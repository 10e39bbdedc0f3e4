/-
One step of a read loop.

`readAs_cases` says everything that a read loop can do in a step: it takes a frame
from its socket, it leaves, it puts the event in hand on the work queue, it begins
to wait for a slot, or it lets go of its connection.  Each case says what has
become of the socket, of the events on the queue and of the reading of the
connection, and what has to be the case for it to happen.

A read loop that is told to stop may leave at two points, while it waits for a
frame and while it offers an event.  Only the second costs an event, and no frame
but a close is a reason to leave: both can be read off the cases.
-/
import Foreman.Proofs.Server.Run

namespace Foreman.Server

/-! ### Sockets -/

/-- The frames of the worker that wait in a socket. -/
def incoming (n : Nat) (s : Server) : List Frame := (s.link? n).elim [] (·.incoming)

theorem incoming_of_link? {n : Nat} {s : Server} {l : Link} (h : s.link? n = some l) :
    s.incoming n = l.incoming := by
  rw [incoming, h]
  rfl

theorem incoming_modifyLink {f : Link → Link} (h : ∀ l, (f l).incoming = l.incoming) (m n : Nat)
    (s : Server) : (s.modifyLink m f).incoming n = s.incoming n := by
  simp only [incoming, link?, modifyLink, List.getElem?_modify]
  cases s.links[n]? with
  | none => rfl
  | some l =>
    by_cases hm : m = n
    · simp [hm, h]
    · simp [hm]

/-- A read loop that takes the first frame leaves the others. -/
theorem incoming_drained {n : Nat} {s : Server} {l : Link} (h : s.link? n = some l)
    (rest : List Frame) :
    (s.modifyLink n fun l => { l with incoming := rest }.drain).incoming n = rest := by
  simp only [incoming, link?, modifyLink, List.getElem?_modify]
  rw [show s.links[n]? = some l from h]
  simp [Link.drain]

/-- No frame of a worker has come or gone. -/
def SameSockets (s s' : Server) : Prop := ∀ n, s'.incoming n = s.incoming n

theorem SameSockets.trans {s₁ s₂ s₃ : Server} (h₁ : SameSockets s₁ s₂) (h₂ : SameSockets s₂ s₃) :
    SameSockets s₁ s₃ := fun n => (h₂ n).trans (h₁ n)

theorem sameSockets_of_links {s s' : Server} (h : s'.links = s.links) : SameSockets s s' := by
  intro n
  simp only [incoming, link?, h]

theorem links_wake (t : Task) (s : Server) : (s.wake t).links = s.links := by
  unfold wake
  split <;> rfl

theorem links_wakeAll (ts : List Task) (s : Server) : (s.wakeAll ts).links = s.links := by
  unfold wakeAll
  induction ts generalizing s with
  | nil => rfl
  | cons t rest ih => rw [List.foldl_cons, ih, links_wake]

theorem links_release (key : WorkerKey) (g : Nat) (s : Server) :
    (s.release key g).2.links = s.links := by
  unfold release
  split
  · rfl
  · exact links_wakeAll _ _

theorem links_grantSlot (next : Option Nat) (s : Server) :
    (s.grantSlot next).links = s.links := by
  unfold grantSlot
  split
  · rfl
  · exact links_wake _ _

theorem sameSockets_dropLink (n : Nat) (s : Server) : SameSockets s (s.dropLink n) := by
  refine SameSockets.trans ?_ (sameSockets_of_links (links_wake _ _))
  intro m
  refine incoming_modifyLink ?_ n m s
  exact fun _ => rfl

theorem sameSockets_afterStop (c : Connection) (s : Server) : SameSockets s (s.afterStop c) := by
  unfold afterStop
  split
  · split
    · exact sameSockets_dropLink _ s
    · exact fun _ => rfl
  · exact fun _ => rfl

/-! ### Readings -/

/-- A reading whose read loop has come to something else in hand. -/
def Reading.moved (g : Nat) (held : List WorkEvent) (running : Bool) (x : Reading) : Reading :=
  if x.generation = g then { x with held := held, running := running } else x

@[simp] theorem moved_generation (g : Nat) (held : List WorkEvent) (running : Bool) (x : Reading) :
    (x.moved g held running).generation = x.generation := by
  unfold Reading.moved
  split <;> rfl

theorem readings_setReader (g : Nat) (r : Reader) (s : Server) :
    (s.setReader g r).readings = s.readings.map (Reading.moved g r.held r.isRunning) := by
  simp only [readings, setReader, modifyConnection, List.map_map]
  refine List.map_congr_left fun c _ => ?_
  by_cases h : c.generation = g <;> simp [Connection.reading, Reading.moved, h]

/-- A slot that is handed over changes nothing that a reading shows. -/
theorem readings_grantSlot (next : Option Nat) (s : Server) :
    (s.grantSlot next).readings = s.readings := by
  unfold grantSlot
  split
  · rfl
  · rw [(quiet_wake _ _).sameIntake.readings]
    refine map_modifyConnection _ ?_ _ s
    intro c
    split
    · rename_i e he
      simp [Connection.reading, he, Reader.held, Reader.isRunning]
    · rfl

theorem hub_grantSlot (next : Option Nat) (s : Server) : (s.grantSlot next).hub = s.hub := by
  unfold grantSlot
  split
  · rfl
  · rw [(quiet_wake _ _).sameIntake.hub]
    rfl

theorem queue_grantSlot (next : Option Nat) (s : Server) :
    (s.grantSlot next).queue = s.queue := by
  unfold grantSlot
  split
  · rfl
  · rw [(quiet_wake _ _).sameIntake.queue]
    rfl

theorem readings_returnSlot (s : Server) : s.returnSlot.readings = s.readings :=
  readings_grantSlot _ _

/-! ### Events of frames -/

/-- The event of a worker's frame, if there is one. -/
def decoded (limit : Nat) (key : WorkerKey) : Frame → List WorkEvent
  | .text t =>
    match WorkerMessage.ofFrame limit t with
    | .ok (.workResult r) => [.ofResult key r]
    | .error _ => []
  | _ => []

/-- The events of a worker's frames: those of the texts that decode, in order. -/
def decodings (limit : Nat) (key : WorkerKey) (frames : List Frame) : List WorkEvent :=
  frames.flatMap (decoded limit key)

/-! ### What a read loop does in a step -/

/-- A step took `frames` from the socket of `c`, put `put` on the work queue, and left the read
loop with `held` in hand. -/
structure Stroke (c : Connection) (s s' : Server) (frames : List Frame) (put held : List WorkEvent)
    (running : Bool) : Prop where
  hub : s'.hub = s.hub
  abandoned : s'.queue.abandoned = s.queue.abandoned
  socket : s.incoming c.link = frames ++ s'.incoming c.link
  items : s'.queue.items = s.queue.items ++ put
  readings : s'.readings = s.readings.map (Reading.moved c.generation held running)

/-- The read loop of `c` has nothing more to wait for: its socket is empty, and is gone or has
been silent for too long. -/
def RanDry (c : Connection) (s : Server) : Prop :=
  ∃ l, s.link? c.link = some l ∧ l.incoming = [] ∧
    (l.peer.gone = true ∨
      ∃ since, c.reader = .waiting since ∧ since + s.hub.keepaliveTimeoutMs ≤ s.clock.monoMs)

/-- What a read loop does in a step. -/
inductive ReadStroke (c : Connection) (s s' : Server) : Prop where
  /-- It takes a frame, and leaves only on a close. -/
  | took (f : Frame) (idle : c.reader.held = []) (running : c.reader.isRunning = true)
      (h : Stroke c s s' [f] [] (decoded s.hub.maxFrameBytes c.key f) (decide (f ≠ .close)))
  /-- It leaves, with what it has in hand. -/
  | left (running : c.reader.isRunning = true)
      (holding : c.reader.held ≠ [] → c.shutdown = true ∨ s.queue.abandoned = true)
      (idle : c.reader.held = [] → c.shutdown = true ∨ RanDry c s)
      (h : Stroke c s s' [] [] [] false)
  /-- It puts the event in hand on the work queue. -/
  | put (e : WorkEvent) (holding : c.reader.held = [e]) (running : c.reader.isRunning = true)
      (consumer : s.queue.abandoned = false) (h : Stroke c s s' [] [e] [] true)
  /-- It begins to wait for a slot. -/
  | waits (e : WorkEvent) (holding : c.reader.held = [e]) (running : c.reader.isRunning = true)
      (h : Stroke c s s' [] [] [e] true)
  /-- It lets go of its connection. -/
  | stops (idle : c.reader.held = []) (running : c.reader.isRunning = false)
      (h : Stroke c s s' [] [] [] false)

theorem stroke_setReader (r : Reader) (c : Connection) (s : Server) :
    Stroke c s (s.setReader c.generation r) [] [] r.held r.isRunning where
  hub := rfl
  abandoned := rfl
  socket := rfl
  items := (List.append_nil _).symm
  readings := readings_setReader c.generation r s

/-! ### Slots come and go -/

theorem items_release (q : WorkQueue) : q.release.2.items = q.items := by
  unfold WorkQueue.release
  split <;> rfl

theorem abandoned_release (q : WorkQueue) : q.release.2.abandoned = q.abandoned := by
  unfold WorkQueue.release
  split <;> rfl

theorem items_acquire? {q q' : WorkQueue} (h : q.acquire? = some q') : q'.items = q.items := by
  unfold WorkQueue.acquire? at h
  split at h
  · simp at h
  · obtain rfl := Option.some.inj h
    rfl

theorem abandoned_acquire? {q q' : WorkQueue} (h : q.acquire? = some q') :
    q'.abandoned = q.abandoned := by
  unfold WorkQueue.acquire? at h
  split at h
  · simp at h
  · obtain rfl := Option.some.inj h
    rfl

/-- Neither a socket nor the events of the queue nor what the read loops have in hand has
changed; the slots of the queue may have. -/
structure Unmoved (s s' : Server) : Prop where
  hub : s'.hub = s.hub
  abandoned : s'.queue.abandoned = s.queue.abandoned
  sockets : SameSockets s s'
  items : s'.queue.items = s.queue.items
  readings : s'.readings = s.readings

theorem unmoved_of_sameIntake {s s' : Server} (hi : SameIntake s s') (hs : SameSockets s s') :
    Unmoved s s' :=
  ⟨hi.hub, by rw [hi.queue], hs, by rw [hi.queue], hi.readings⟩

theorem unmoved_of_queue {s : Server} {q : WorkQueue} (ha : q.abandoned = s.queue.abandoned)
    (hi : q.items = s.queue.items) : Unmoved s { s with queue := q } :=
  ⟨rfl, ha, sameSockets_of_links rfl, hi, rfl⟩

theorem Unmoved.trans {s₁ s₂ s₃ : Server} (h₁ : Unmoved s₁ s₂) (h₂ : Unmoved s₂ s₃) :
    Unmoved s₁ s₃ :=
  ⟨h₂.hub.trans h₁.hub, h₂.abandoned.trans h₁.abandoned, h₁.sockets.trans h₂.sockets,
    h₂.items.trans h₁.items, h₂.readings.trans h₁.readings⟩

theorem unmoved_bump (m : Metric) (s : Server) : Unmoved s (s.bump m) :=
  unmoved_of_sameIntake (quiet_bump m s).sameIntake (sameSockets_of_links rfl)

theorem unmoved_wake (t : Task) (s : Server) : Unmoved s (s.wake t) :=
  unmoved_of_sameIntake (quiet_wake t s).sameIntake (sameSockets_of_links (links_wake t s))

theorem unmoved_returnSlot (s : Server) : Unmoved s s.returnSlot where
  hub := hub_grantSlot _ _
  abandoned := by
    rw [returnSlot, queue_grantSlot]
    exact abandoned_release _
  sockets := sameSockets_of_links (links_grantSlot _ _)
  items := by
    rw [returnSlot, queue_grantSlot]
    exact items_release _
  readings := readings_returnSlot s

/-- What moves nothing before a stroke is part of it. -/
theorem Stroke.after {c : Connection} {s s₁ s' : Server} {frames : List Frame}
    {put held : List WorkEvent} {running : Bool} (h₁ : Unmoved s s₁)
    (h : Stroke c s₁ s' frames put held running) : Stroke c s s' frames put held running where
  hub := h.hub.trans h₁.hub
  abandoned := h.abandoned.trans h₁.abandoned
  socket := by rw [← h.socket, h₁.sockets]
  items := by rw [h.items, h₁.items]
  readings := by rw [h.readings, h₁.readings]

/-- The same after it. -/
theorem Stroke.before {c : Connection} {s s₁ s' : Server} {frames : List Frame}
    {put held : List WorkEvent} {running : Bool} (h : Stroke c s s₁ frames put held running)
    (h₁ : Unmoved s₁ s') : Stroke c s s' frames put held running where
  hub := h₁.hub.trans h.hub
  abandoned := h₁.abandoned.trans h.abandoned
  socket := by rw [h.socket, h₁.sockets]
  items := by rw [h₁.items, h.items]
  readings := by rw [h₁.readings, h.readings]

theorem stroke_bump_setReader (m : Metric) (r : Reader) (c : Connection) (s : Server) :
    Stroke c s ((s.bump m).setReader c.generation r) [] [] r.held r.isRunning :=
  .after (unmoved_bump m s) (stroke_setReader r c _)

/-! ### The steps of a read loop -/

theorem stroke_readOn (c : Connection) (s : Server) :
    Stroke c s (s.readOn c.generation) [] [] [] true :=
  stroke_setReader _ c s

theorem stroke_bump_readOn (m : Metric) (c : Connection) (s : Server) :
    Stroke c s ((s.bump m).readOn c.generation) [] [] [] true :=
  stroke_bump_setReader m _ c s

/-- A text leaves its event in the hand of the read loop, if it decodes. -/
theorem stroke_readText (c : Connection) (text : String) (s : Server) :
    Stroke c s (s.readText c text) [] [] (decoded s.hub.maxFrameBytes c.key (.text text)) true := by
  unfold readText decoded
  refine .after (unmoved_bump .framesIn s) ?_
  dsimp only
  rw [(unmoved_bump .framesIn s).hub]
  cases WorkerMessage.ofFrame s.hub.maxFrameBytes text with
  | ok m =>
    obtain ⟨r⟩ := m
    exact stroke_setReader _ c _
  | error e => exact stroke_bump_readOn .framesRejected c _

/-- No frame but a close makes the read loop leave. -/
theorem stroke_readFrame (c : Connection) (f : Frame) (s : Server) :
    Stroke c s (s.readFrame c f) [] [] (decoded s.hub.maxFrameBytes c.key f)
      (decide (f ≠ .close)) := by
  cases f with
  | text t => exact stroke_readText c t s
  | binary p => exact stroke_bump_readOn .framesRejected c s
  | ping p =>
    have hpong :
        SameSockets s ((s.modifyLink c.link (Link.write (.pong p))).wake (.peer c.link)) := by
      refine SameSockets.trans ?_ (sameSockets_of_links (links_wake _ _))
      intro m
      refine incoming_modifyLink ?_ c.link m s
      exact fun _ => rfl
    have hquiet := (quiet_modifyLink c.link (Link.write (.pong p)) s).trans
      (quiet_wake (.peer c.link) _)
    exact .after (unmoved_of_sameIntake hquiet.sameIntake hpong) (stroke_readOn c _)
  | pong p => exact stroke_readOn c s
  | close => exact stroke_setReader .leaving c s

theorem readStroke_readWaiting {c : Connection} {l : Link} {since : Nat} {s s' : Server}
    (hr : c.reader = .waiting since) (hl : s.link? c.link = some l)
    (h : s.readWaiting c l since = some s') : ReadStroke c s s' := by
  have hidle : c.reader.held = [] := by rw [hr]; rfl
  have hrunning : c.reader.isRunning = true := by rw [hr]; rfl
  unfold readWaiting at h
  split at h
  · rename_i hstop
    obtain rfl := Option.some.inj h
    exact .left hrunning (absurd hidle) (fun _ => .inl hstop) (stroke_setReader .leaving c s)
  · split at h
    · rename_i f rest hin
      obtain rfl := Option.some.inj h
      refine .took f hidle hrunning ?_
      have hf := stroke_readFrame c f
        (s.modifyLink c.link fun l => { l with incoming := rest }.drain)
      exact {
        hub := hf.hub
        abandoned := hf.abandoned
        socket := by
          rw [incoming_of_link? hl, hin, ← List.nil_append (incoming _ _), ← hf.socket,
            incoming_drained hl]
          rfl
        items := hf.items
        readings := hf.readings }
    · rename_i hin
      split at h
      · rename_i hgone
        obtain rfl := Option.some.inj h
        exact .left hrunning (absurd hidle) (fun _ => .inr ⟨l, hl, hin, .inl hgone⟩)
          (stroke_bump_setReader _ .leaving c s)
      · split at h
        · rename_i hsilent
          obtain rfl := Option.some.inj h
          exact .left hrunning (absurd hidle)
            (fun _ => .inr ⟨l, hl, hin, .inr ⟨since, hr, hsilent⟩⟩)
            (stroke_bump_setReader _ .leaving c s)
        · simp at h

theorem stroke_pushEvent (c : Connection) (e : WorkEvent) (s : Server) :
    Stroke c s (s.pushEvent c e) [] [e] [] true := by
  have h : Stroke c { s with queue := s.queue.push e } (s.pushEvent c e) [] [] [] true :=
    .after (unmoved_wake .aggregator _) (stroke_readOn c _)
  exact {
    hub := h.hub
    abandoned := h.abandoned
    socket := h.socket
    items := by rw [h.items, List.append_nil]; rfl
    readings := h.readings }

theorem readStroke_readOffering {c : Connection} {e : WorkEvent} (hr : c.reader = .offering e)
    (s : Server) : ReadStroke c s (s.readOffering c e) := by
  have hheld : c.reader.held = [e] := by rw [hr]; rfl
  have hrunning : c.reader.isRunning = true := by rw [hr]; rfl
  unfold readOffering
  split
  · rename_i hstop
    exact .left hrunning (fun _ => hstop) (fun hidle => by simp [hheld] at hidle)
      (stroke_setReader .leaving c s)
  · rename_i hstop
    rw [not_or, Bool.not_eq_true, Bool.not_eq_true] at hstop
    split
    · rename_i q hq
      have hslot : Unmoved s { s with queue := q } := unmoved_of_queue (abandoned_acquire? hq)
        (items_acquire? hq)
      exact .put e hheld hrunning hstop.2 (.after hslot (stroke_pushEvent c e _))
    · have hwait : Unmoved s { s with queue := s.queue.enqueue c.generation } :=
        unmoved_of_queue rfl rfl
      exact .waits e hheld hrunning (.after hwait (stroke_setReader (.queued e) c _))

theorem readStroke_readQueued {c : Connection} {e : WorkEvent} (hr : c.reader = .queued e)
    {s s' : Server} (h : s.readQueued c = some s') : ReadStroke c s s' := by
  have hheld : c.reader.held = [e] := by rw [hr]; rfl
  have hrunning : c.reader.isRunning = true := by rw [hr]; rfl
  unfold readQueued at h
  split at h
  · rename_i hstop
    obtain rfl := Option.some.inj h
    have hforget : Unmoved s { s with queue := s.queue.forget c.generation } :=
      unmoved_of_queue rfl rfl
    exact .left hrunning (fun _ => hstop) (fun hidle => by simp [hheld] at hidle)
      (.after hforget (stroke_setReader .leaving c _))
  · simp at h

theorem readStroke_readGranted {c : Connection} {e : WorkEvent} (hr : c.reader = .granted e)
    (s : Server) : ReadStroke c s (s.readGranted c e) := by
  have hheld : c.reader.held = [e] := by rw [hr]; rfl
  have hrunning : c.reader.isRunning = true := by rw [hr]; rfl
  unfold readGranted
  split
  · rename_i hstop
    exact .left hrunning (fun _ => hstop) (fun hidle => by simp [hheld] at hidle)
      (.after (unmoved_returnSlot s) (stroke_setReader .leaving c _))
  · rename_i hstop
    rw [not_or, Bool.not_eq_true, Bool.not_eq_true] at hstop
    exact .put e hheld hrunning hstop.2 (stroke_pushEvent c e s)

theorem readStroke_readLeaving {c : Connection} (hr : c.reader = .leaving) (s : Server) :
    ReadStroke c s (s.readLeaving c) := by
  have hrelease := unmoved_of_sameIntake (sameIntake_release c.key c.generation s)
    (sameSockets_of_links (links_release c.key c.generation s))
  have hdrop (t : Server) : Unmoved t (t.dropWorkSender (.reader c.generation)) :=
    unmoved_of_sameIntake (quiet_dropWorkSender _ t).sameIntake (sameSockets_of_links rfl)
  have hstop : Unmoved _ (s.readLeaving c) :=
    ((hdrop _).trans (unmoved_of_sameIntake (quiet_afterStop c _).sameIntake
      (sameSockets_afterStop c _))).trans (unmoved_wake .aggregator _)
  refine .stops (by rw [hr]; rfl) (by rw [hr]; rfl) ?_
  exact .before (.after hrelease (stroke_setReader .stopped c _)) hstop

/-- **Everything that a read loop can do in a step.** -/
theorem readAs_cases {c : Connection} {s s' : Server} (h : s.readAs c = some s') :
    ReadStroke c s s' := by
  cases readCase_of_readAs h with
  | waiting since l phase link hstep => exact readStroke_readWaiting phase link hstep
  | offering e phase hstep => exact hstep ▸ readStroke_readOffering phase s
  | queued e phase hstep => exact readStroke_readQueued phase hstep
  | granted e phase hstep => exact hstep ▸ readStroke_readGranted phase s
  | leaving phase hstep => exact hstep ▸ readStroke_readLeaving phase s

theorem Stroke.aware {c : Connection} {s s' : Server} {frames : List Frame}
    {put held : List WorkEvent} {running : Bool}
    (h : Stroke c.unaware s s' frames put held running) : Stroke c s s' frames put held running :=
  ⟨h.hub, h.abandoned, h.socket, h.items, h.readings⟩

/-- A loop that has not noticed the signal does nothing that it could not do otherwise. -/
theorem ReadStroke.aware {c : Connection} {s s' : Server} (h : ReadStroke c.unaware s s') :
    ReadStroke c s s' := by
  cases h with
  | took f idle running h => exact .took f idle running h.aware
  | left running holding idle h =>
    refine .left running (fun hh => ?_) (fun hi => ?_) h.aware
    · exact (holding hh).imp_left (by simp [Connection.unaware, Connection.shutdown])
    · exact (idle hi).imp_left (by simp [Connection.unaware, Connection.shutdown])
  | put e holding running consumer h => exact .put e holding running consumer h.aware
  | waits e holding running h => exact .waits e holding running h.aware
  | stops idle running h => exact .stops idle running h.aware

end Foreman.Server
