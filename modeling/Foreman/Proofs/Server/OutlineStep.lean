/-
How a server moves its outline.

A read loop reads, offers and leaves, and `Outline.reads` says what that is to an outline;
of the frame that is read it takes no more than the kind.  `outline_readAs` is the square
that commutes: to take the outline after a step of a read loop is to take the step of the
outline.  So what a read loop does next can be told without a look at any contents, and the
same goes for the aggregator as far as the queue is concerned.
-/
import Foreman.Proofs.Server.Outline

namespace Foreman.Server

/-! ### Moves -/

namespace Outline

/-- One read loop stands elsewhere. -/
def moved (g : Nat) (f : Phase → Phase) (o : Outline) : Outline :=
  { o with members := o.members.map fun x =>
      if x.generation = g then { x with phase := f x.phase } else x }

/-- The slot goes to whoever waits for it. -/
def granted (next : Option Nat) (o : Outline) : Outline :=
  next.elim o fun g => o.moved g .grant

end Outline

/-! ### The read loop -/

@[simp] theorem outline_setReader (g : Nat) (r : Reader) (s : Server) :
    (s.setReader g r).outline = s.outline.moved g fun _ => r.phase := by
  unfold outline Outline.moved setReader modifyConnection
  simp only [List.map_map]
  congr 1
  refine List.map_congr_left fun c _ => ?_
  by_cases hg : c.generation = g <;> simp [Connection.member, hg]

@[simp] theorem outline_grantSlot (next : Option Nat) (s : Server) :
    (s.grantSlot next).outline = s.outline.granted next := by
  cases next with
  | none => rfl
  | some g =>
    rw [grantSlot, outline_wake]
    unfold outline Outline.granted Outline.moved modifyConnection
    simp only [List.map_map, Option.elim_some]
    congr 1
    refine List.map_congr_left fun c _ => ?_
    by_cases hg : c.generation = g
    · cases hr : c.reader <;>
        simp [Connection.member, hg, hr, Reader.phase, Phase.grant]
    · simp [Connection.member, hg]

/-- What a frame is to a read loop. -/
inductive FrameKind where
  | result
  | close
  /-- It is no message, or one that cannot be read. -/
  | other
deriving DecidableEq

/-- What a frame is to a read loop that reads texts up to a limit. -/
def Frame.kind (limit : Nat) : Frame → FrameKind
  | text t =>
    match WorkerMessage.ofFrame limit t with
    | .ok _ => .result
    | .error _ => .other
  | close => .close
  | _ => .other

/-- What a read loop sees of a link: the kind of the next frame, if one has come, and whether the
worker's socket is gone. -/
structure View where
  next : Option FrameKind
  gone : Bool
deriving DecidableEq

/-- The view of a link of a read loop that reads texts up to a limit. -/
def Link.view (limit : Nat) (l : Link) : View :=
  ⟨l.incoming.head?.map (Frame.kind limit), l.peer.gone⟩

namespace Outline

/-- A read loop goes on to a phase. -/
def goes (x : Member) (p : Phase) (o : Outline) : Outline := o.moved x.generation fun _ => p

/-- A read loop puts an event into a slot that it holds, and goes on reading. -/
def pushes (x : Member) (key : WorkerKey) (o : Outline) : Outline :=
  { o with line := { o.line with items := o.line.items ++ [key] } }.goes x
    (.waiting o.clock.monoMs)

/-- A read loop stops, and with it goes its sending end of the work queue. -/
def leaves (x : Member) (o : Outline) : Outline :=
  { o with senders := o.senders.erase (.reader x.generation) }.goes x .stopped

/-- Somebody gives a slot back. -/
def returns (o : Outline) : Outline :=
  match o.line.waiting with
  | [] => { o with line := { o.line with free := o.line.free + 1 } }
  | g :: rest => { o with line := { o.line with waiting := rest } }.granted (some g)

/-- A step of the read loop of a connection, told from the outline, from whether the loop is told
to stop, and from its view of the link. -/
def reads (x : Member) (stop : Bool) (view : Option View) (o : Outline) : Option Outline :=
  match x.phase with
  | .waiting sinceMs => view.bind fun v =>
    if stop then some (o.goes x .leaving)
    else match v.next with
      | some .result => some (o.goes x (.offering x.key))
      | some .close => some (o.goes x .leaving)
      | some .other => some (o.goes x (.waiting o.clock.monoMs))
      | none =>
        if v.gone ∨ sinceMs + o.hub.keepaliveTimeoutMs ≤ o.clock.monoMs then
          some (o.goes x .leaving)
        else none
  | .offering key =>
    if stop ∨ o.line.abandoned then some (o.goes x .leaving)
    else if o.line.free = 0 then
      some ({ o with line := { o.line with waiting := o.line.waiting ++ [x.generation] } }.goes x
        (.queued key))
    else some ({ o with line := { o.line with free := o.line.free - 1 } }.pushes x key)
  | .queued _ =>
    if stop ∨ o.line.abandoned then
      let waiting := o.line.waiting.filter (· ≠ x.generation)
      some ({ o with line := { o.line with waiting := waiting } }.goes x .leaving)
    else none
  | .granted key =>
    if stop ∨ o.line.abandoned then some (o.returns.goes x .leaving)
    else some (o.pushes x key)
  | .leaving => some (o.leaves x)
  | .stopped => none

/-- The shape of every step of a read loop. -/
inductive Strides (x : Member) (o o' : Outline) : Prop where
  /-- The line changes, somebody may get a slot, and the loop goes on to a phase.  If that is to
  wait, it waits since now. -/
  | goes (l : Line) (next : Option Nat) (p : Phase) (running : x.phase ≠ .stopped)
      (going : p ≠ .stopped) (waits : ∀ since, p = .waiting since → since = o.clock.monoMs)
      (h : ({ o with line := l }.granted next).goes x p = o')
  /-- The loop stops. -/
  | leaves (phase : x.phase = .leaving) (h : o.leaves x = o')

theorem strides_of_reads {x : Member} {stop : Bool} {view : Option View} {o o' : Outline}
    (h : o.reads x stop view = some o') : Strides x o o' := by
  unfold reads at h
  cases hphase : x.phase with
  | waiting since =>
    have hrunning : x.phase ≠ .stopped := by simp [hphase]
    have hgoes {p : Phase} (hp : p ≠ .stopped) (hw : ∀ since, p ≠ .waiting since) :
        Strides x o (o.goes x p) :=
      .goes o.line none p hrunning hp (fun since hsince => absurd hsince (hw since)) rfl
    simp only [hphase] at h
    obtain ⟨v, -, hv⟩ := Option.bind_eq_some_iff.mp h
    split at hv
    · exact Option.some.inj hv ▸ hgoes nofun nofun
    · split at hv
      · exact Option.some.inj hv ▸ hgoes nofun nofun
      · exact Option.some.inj hv ▸ hgoes nofun nofun
      · exact .goes o.line none (.waiting o.clock.monoMs) hrunning nofun
          (fun since hsince => (Phase.waiting.inj hsince).symm) (Option.some.inj hv)
      · split at hv
        · exact Option.some.inj hv ▸ hgoes nofun nofun
        · cases hv
  | offering key =>
    have hrunning : x.phase ≠ .stopped := by simp [hphase]
    simp only [hphase] at h
    split at h
    · exact .goes o.line none .leaving hrunning nofun nofun (Option.some.inj h)
    · split at h
      · exact .goes _ none (.queued key) hrunning nofun nofun (Option.some.inj h)
      · exact .goes _ none (.waiting o.clock.monoMs) hrunning nofun
          (fun since hsince => (Phase.waiting.inj hsince).symm) (Option.some.inj h)
  | queued key =>
    have hrunning : x.phase ≠ .stopped := by simp [hphase]
    simp only [hphase] at h
    split at h
    · exact .goes _ none .leaving hrunning nofun nofun (Option.some.inj h)
    · cases h
  | granted key =>
    have hrunning : x.phase ≠ .stopped := by simp [hphase]
    simp only [hphase] at h
    split at h
    · obtain rfl := Option.some.inj h
      unfold returns
      split
      · exact .goes _ none .leaving hrunning nofun nofun rfl
      · rename_i g rest _
        exact .goes _ (some g) .leaving hrunning nofun nofun rfl
    · exact .goes _ none (.waiting o.clock.monoMs) hrunning nofun
        (fun since hsince => (Phase.waiting.inj hsince).symm) (Option.some.inj h)
  | leaving =>
    simp only [hphase] at h
    exact .leaves hphase (Option.some.inj h)
  | stopped => simp [hphase] at h

end Outline

section

variable {c : Connection} {s : Server}

@[simp] theorem outline_readOn (g : Nat) (s : Server) :
    (s.readOn g).outline = s.outline.moved g fun _ => .waiting s.clock.monoMs :=
  outline_setReader g _ s

theorem outline_pushEvent (c : Connection) (e : WorkEvent) (s : Server) :
    (s.pushEvent c e).outline = s.outline.pushes c.member e.workerKey := by
  have hclock : ({ s with queue := s.queue.push e }.wake .aggregator).clock = s.clock :=
    congrArg Outline.clock (outline_wake .aggregator { s with queue := s.queue.push e })
  rw [pushEvent, outline_readOn, outline_wake, hclock]
  simp only [outline, WorkQueue.line, WorkQueue.push, List.map_append, List.map_cons, List.map_nil]
  rfl

theorem outline_returnSlot (s : Server) : s.returnSlot.outline = s.outline.returns := by
  unfold returnSlot Outline.returns
  rw [outline_grantSlot]
  cases hw : s.queue.waiting with
  | nil => simp [WorkQueue.release, WorkQueue.line, outline, hw, Outline.granted]
  | cons g rest => simp [WorkQueue.release, WorkQueue.line, outline, hw, Outline.granted]

/-- A frame that was taken moves the read loop on according to its kind. -/
theorem outline_readFrame (c : Connection) (f : Frame) (s : Server) :
    (s.readFrame c f).outline = s.outline.goes c.member
      (match f.kind s.hub.maxFrameBytes with
        | .result => .offering c.key
        | .close => .leaving
        | .other => .waiting s.clock.monoMs) := by
  have hclock (n : Nat) (f : Link → Link) (t : Task) :
      ((s.modifyLink n f).wake t).clock = s.clock :=
    congrArg Outline.clock ((outline_wake t _).trans (outline_modifyLink n f s))
  cases f with
  | text t =>
    rw [readFrame, readText]
    have hhub : (s.bump .framesIn).hub = s.hub := rfl
    dsimp only [Frame.kind]
    rw [hhub]
    cases hm : WorkerMessage.ofFrame s.hub.maxFrameBytes t with
    | ok m =>
      obtain ⟨r⟩ := m
      dsimp only
      rw [outline_setReader, outline_bump]
      rfl
    | error _ =>
      dsimp only
      rw [outline_readOn, outline_bump, outline_bump]
      rfl
  | binary p => exact outline_readOn _ _
  | ping p =>
    rw [readFrame, outline_readOn, outline_wake, outline_modifyLink, hclock]
    rfl
  | pong p => exact outline_readOn _ _
  | close => exact outline_setReader _ _ s

theorem outline_readWaiting {c : Connection} {since : Nat} (hr : c.reader = .waiting since)
    (l : Link) (s : Server) :
    (s.readWaiting c l since).map outline =
      s.outline.reads c.member c.shutdown (some (l.view s.hub.maxFrameBytes)) := by
  have hphase : c.member.phase = .waiting since := by rw [Connection.member, hr]; rfl
  unfold readWaiting Outline.reads
  rw [hphase]
  dsimp only [Option.bind_some]
  split
  · rw [Option.map_some, outline_setReader]
    rfl
  · cases hincoming : l.incoming with
    | nil =>
      simp only [Link.view, hincoming, List.head?_nil, Option.map_none]
      by_cases hgone : l.peer.gone = true
      · simp only [hgone, true_or, if_true, Option.map_some, outline_setReader, outline_bump]
        rfl
      · have hhere : l.peer.gone = false := Bool.eq_false_iff.mpr hgone
        have hclock : s.outline.clock = s.clock := rfl
        have hhub : s.outline.hub = s.hub := rfl
        simp only [hhere, Bool.false_eq_true, false_or, if_false, hclock, hhub]
        split
        · rw [Option.map_some, outline_setReader, outline_bump]
          rfl
        · rfl
    | cons f rest =>
      simp only [Link.view, hincoming, List.head?_cons, Option.map_some, outline_readFrame,
        outline_modifyLink]
      have hhub (n : Nat) (f : Link → Link) : (s.modifyLink n f).hub = s.hub := rfl
      rw [hhub]
      cases f.kind s.hub.maxFrameBytes <;> rfl

theorem outline_readOffering {c : Connection} {e : WorkEvent} (hr : c.reader = .offering e)
    (view : Option View) (s : Server) :
    some (s.readOffering c e).outline = s.outline.reads c.member c.shutdown view := by
  have hphase : c.member.phase = .offering e.workerKey := by rw [Connection.member, hr]; rfl
  have habandoned : s.outline.line.abandoned = s.queue.abandoned := rfl
  unfold readOffering Outline.reads
  rw [hphase]
  dsimp only
  rw [habandoned]
  split
  · rw [outline_setReader]
    rfl
  · by_cases hfull : s.outline.line.free = 0
    · have hacquire : s.queue.acquire? = none := if_pos hfull
      rw [if_pos hfull, hacquire]
      dsimp only
      rw [outline_setReader]
      rfl
    · have hacquire : s.queue.acquire? = some { s.queue with free := s.queue.free - 1 } :=
        if_neg hfull
      rw [if_neg hfull, hacquire]
      dsimp only
      rw [outline_pushEvent]
      rfl

theorem outline_readQueued {c : Connection} {e : WorkEvent} (hr : c.reader = .queued e)
    (view : Option View) (s : Server) :
    (s.readQueued c).map outline = s.outline.reads c.member c.shutdown view := by
  have hphase : c.member.phase = .queued e.workerKey := by rw [Connection.member, hr]; rfl
  have habandoned : s.outline.line.abandoned = s.queue.abandoned := rfl
  unfold readQueued Outline.reads
  rw [hphase]
  dsimp only
  rw [habandoned]
  split
  · rw [Option.map_some, outline_setReader]
    rfl
  · rfl

theorem outline_readGranted {c : Connection} {e : WorkEvent} (hr : c.reader = .granted e)
    (view : Option View) (s : Server) :
    some (s.readGranted c e).outline = s.outline.reads c.member c.shutdown view := by
  have hphase : c.member.phase = .granted e.workerKey := by rw [Connection.member, hr]; rfl
  have habandoned : s.outline.line.abandoned = s.queue.abandoned := rfl
  unfold readGranted Outline.reads
  rw [hphase]
  dsimp only
  rw [habandoned]
  split
  · rw [outline_setReader, outline_returnSlot]
    rfl
  · rw [outline_pushEvent]

/-- **What a read loop does shows in the outline, and can be told from it.** -/
theorem outline_readAs (c : Connection) (s : Server) :
    (s.readAs c).map outline = s.outline.reads c.member c.shutdown
      ((s.link? c.link).map (Link.view s.hub.maxFrameBytes)) := by
  unfold readAs
  cases hr : c.reader with
  | waiting since =>
    cases s.link? c.link with
    | none =>
      have hphase : c.member.phase = .waiting since := by rw [Connection.member, hr]; rfl
      rw [Outline.reads, hphase]
      rfl
    | some l => exact outline_readWaiting hr l s
  | offering e => exact outline_readOffering hr _ s
  | queued e => exact outline_readQueued hr _ s
  | granted e => exact outline_readGranted hr _ s
  | leaving =>
    have hphase : c.member.phase = .leaving := by rw [Connection.member, hr]; rfl
    rw [Outline.reads, hphase, Option.map_some, readLeaving, outline_wake, outline_afterStop,
      outline_dropWorkSender, outline_setReader, outline_release]
    rfl
  | stopped =>
    have hphase : c.member.phase = .stopped := by rw [Connection.member, hr]; rfl
    rw [Outline.reads, hphase]
    rfl

end

/-! ### The aggregator -/

/-- The oldest event goes, and its slot goes to whoever waits for one. -/
def Outline.takes (o : Outline) : Option (WorkerKey × Outline) :=
  match o.line.items with
  | [] => none
  | key :: rest => some (key, { o with line := { o.line with items := rest } }.returns)

theorem outline_takeEvent (s : Server) :
    (s.takeEvent.map fun p => (p.1.workerKey, p.2.outline)) = s.outline.takes := by
  have hitems : s.outline.line.items = s.queue.items.map (·.workerKey) := rfl
  unfold takeEvent WorkQueue.take Outline.takes
  rw [hitems]
  cases s.queue.items with
  | nil => rfl
  | cons e rest =>
    have hreturned := outline_returnSlot { s with queue := { s.queue with items := rest } }
    exact congrArg (fun o => some (e.workerKey, o)) hreturned

/-- A result that came in under a key is recorded. -/
def Outline.records (key : WorkerKey) (o : Outline) : Outline :=
  { o with books := (o.books.record key).2 }

/-- Of an event that is dealt with only the key shows. -/
theorem outline_processEvent (e : WorkEvent) (s : Server) :
    (s.processEvent e).outline = s.outline.records e.workerKey := by
  have hrecorded : ((s.bump .workEvents).recordEvent e).2.outline =
      s.outline.records e.workerKey := by
    have hstore : (s.bump .workEvents).store = s.store := rfl
    have hbooks := congrArg Prod.snd (s.store.books_recordWork e)
    have hrest (v : Server)
        (hv : v.outline = { s.outline with books := (s.store.recordWork e).2.books }) :
        v.outline = s.outline.records e.workerKey := by
      rw [hv]
      exact congrArg (fun b => { s.outline with books := b }) hbooks
    unfold recordEvent
    rw [hstore]
    split <;> rename_i heq <;> exact hrest _ (by rw [heq]; rfl)
  unfold processEvent
  split <;> rename_i heq <;> rw [heq] at hrecorded
  · exact hrecorded
  · unfold rewardEvent
    split
    · rw [outline_wake]
      exact hrecorded
    · exact hrecorded

/-! ### Connections that join -/

/-- A connection joins, and its read loop waits, with a sending end of the work queue. -/
def Outline.joined (key : WorkerKey) (g link : Nat) (o : Outline) : Outline :=
  { o with
    members := o.members ++ [⟨key, g, link, .waiting o.clock.monoMs⟩]
    senders := o.senders ++ [Sender.reader g] }

theorem outline_register {s : Server} (hopen : s.registry.isOpen = true) (key : WorkerKey)
    (link : Nat) : (s.register key link).2.outline =
      s.outline.joined key (s.registry.lastGeneration + 1) link := by
  have hready (v : Server) (hv : v.outline = s.outline) :
      Server.outline { v with
          connections := v.connections ++
            [Connection.start v key (s.registry.lastGeneration + 1) link]
          workSenders := v.workSenders ++ [Sender.reader (s.registry.lastGeneration + 1)] } =
        s.outline.joined key (s.registry.lastGeneration + 1) link := by
    rw [← hv]
    simp [outline, Outline.joined, Connection.start, Connection.member, Reader.phase]
  simp only [register, Registry.register, hopen, if_true, outline_bump, outline_wakeAll]
  refine hready _ ?_
  rw [outline_showConnected, outline_replace]
  rfl

theorem outline_register_of_closed {s : Server} (hclosed : s.registry.isOpen = false)
    (key : WorkerKey) (link : Nat) : (s.register key link).2.outline = s.outline := by
  rw [register_of_closed hclosed, outline_dropLink]

end Foreman.Server
