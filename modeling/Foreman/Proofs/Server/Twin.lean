/-
Servers that differ in contents only.

Two servers are twins if one would be the other with the contents of what passes through it
written over: other ids, hashes and proofs of work, but every text at its length.  Where a
frame, an event, a reward or a message stands in one of them, one stands in the other that
takes as many bytes and is for the same worker.  What has been counted and reported, and who
is next on the agenda, may differ.

What the server does with contents is to decode them, to record and to repeat them, and to
write them to a socket, where they take room.  So twins stay twins whatever is done to both:
the lemmas here say so for what happens at one stroke, the file on the steps of tasks for the
rest.
-/
import Foreman.Proofs.Server.Headroom
import Foreman.Proofs.Server.OutlineAct

namespace Foreman

/-! ### Lists side by side -/

section

variable {α β : Type} {R : α → α → Prop} {xs ys : List α}

theorem rel_find? {p : α → Bool} (h : List.Forall₂ R xs ys) (hp : ∀ x y, R x y → p y = p x) :
    Option.Rel R (xs.find? p) (ys.find? p) := by
  induction h with
  | nil => exact .none
  | @cons x y xs ys hxy _ ih =>
    rw [List.find?_cons, List.find?_cons, hp x y hxy]
    cases p x with
    | true => exact .some hxy
    | false => exact ih

theorem rel_getElem? (h : List.Forall₂ R xs ys) (n : Nat) : Option.Rel R xs[n]? ys[n]? := by
  induction h generalizing n with
  | nil => exact .none
  | cons hxy _ ih =>
    cases n with
    | zero => exact .some hxy
    | succ n => exact ih n

theorem rel_modify {f g : α → α} (h : List.Forall₂ R xs ys) (hf : ∀ x y, R x y → R (f x) (g y))
    (n : Nat) : List.Forall₂ R (xs.modify n f) (ys.modify n g) := by
  induction h generalizing n with
  | nil => simp
  | @cons x y xs ys hxy hrest ih =>
    cases n with
    | zero => exact .cons (hf x y hxy) hrest
    | succ n => exact .cons hxy (ih n)

theorem rel_bind {S : β → β → Prop} {o o' : Option α} {f g : α → Option β} (h : Option.Rel R o o')
    (hf : ∀ x y, R x y → Option.Rel S (f x) (g y)) : Option.Rel S (o.bind f) (o'.bind g) := by
  cases h with
  | none => exact .none
  | some hxy => exact hf _ _ hxy

theorem rel_map {S : β → β → Prop} {o o' : Option α} {f g : α → β} (h : Option.Rel R o o')
    (hf : ∀ x y, R x y → S (f x) (g y)) : Option.Rel S (o.map f) (o'.map g) := by
  cases h with
  | none => exact .none
  | some hxy => exact .some (hf _ _ hxy)

theorem rel_getD {x y : α} {o o' : Option α} (h : Option.Rel R o o') (hxy : R x y) :
    R (o.getD x) (o'.getD y) := by
  cases h with
  | none => exact hxy
  | some h => exact h

end

/-! ### Contents -/

/-- The bytes of a hash in a message, its quotes included. -/
def WorkResult.hashSize (r : WorkResult) : Nat := (Json.ofText r.hash).size

/-- The bytes of a message. -/
def ServerMessage.size (m : ServerMessage) : Nat := m.toJson.print.utf8ByteSize

/-- Messages of one length. -/
def ServerMessage.Twin (m n : ServerMessage) : Prop := n.size = m.size

/-- Results of one worker, with hashes of one length. -/
structure WorkEvent.Twin (e f : WorkEvent) : Prop where
  key : f.workerKey = e.workerKey
  hash : f.result.hashSize = e.result.hashSize

/-- Rewards of one length and with the same terms. -/
structure RewardEvent.Twin (r q : RewardEvent) : Prop where
  terms : Server.RewardEvent.terms q = Server.RewardEvent.terms r
  size : ServerMessage.Twin r.payload q.payload

/-- A reward takes the bytes of its hash, and others that do not depend on its result. -/
theorem Reward.size_toJson {r q : Reward}
    (hash : (Json.ofText q.hash).size = (Json.ofText r.hash).size)
    (total : q.totalResults = r.totalResults) (time : q.awardedAtMs = r.awardedAtMs) :
    q.toJson.size = r.toJson.size := by
  rw [toJson, toJson, Json.size_record, Json.size_record]
  simp only [List.map_cons, List.map_nil, UserId.size_toJson, hash, total, time]

/-- The rewards for two results of one worker, for the same number of results. -/
theorem twin_reward {e f : WorkEvent} (h : e.Twin f) (clock : Clock) {t u : WorkTally}
    (total : u.providerResults = t.providerResults) :
    (Payout.reward clock e t).Twin (Payout.reward clock f u) := by
  refine ⟨?_, ?_⟩
  · simp [Server.RewardEvent.terms, Payout.reward, h.key, total]
  · have hsize := Reward.size_toJson (r := ⟨e.result.hash, e.requesterId,
      UInt64.ofNat t.providerResults, clock.unixMs⟩) (q := ⟨f.result.hash, f.requesterId,
      UInt64.ofNat u.providerResults, clock.unixMs⟩) h.hash (by rw [total]) rfl
    simp only [ServerMessage.Twin, ServerMessage.size, Json.utf8ByteSize_print]
    exact hsize

namespace Server

/-! ### Frames and links -/

/-- The server has no answer to the frame, and does nothing about it. -/
def Frame.isIdle (limit : Nat) : Frame → Bool
  | text t => !(WorkerMessage.ofFrame limit t).isOk
  | binary _ => true
  | pong _ => true
  | _ => false

/-- Frames of workers that come to the same for a server which reads texts up to a limit: results
with hashes of one length, pings of one length, closes, or neither of them any of these. -/
inductive Frame.Twin (limit : Nat) : Frame → Frame → Prop where
  | result {s t : String} {r q : WorkResult}
      (hs : WorkerMessage.ofFrame limit s = .ok (.workResult r))
      (ht : WorkerMessage.ofFrame limit t = .ok (.workResult q)) (hash : q.hashSize = r.hashSize) :
      Twin limit (.text s) (.text t)
  | ping {p q : List UInt8} (length : q.length = p.length) : Twin limit (.ping p) (.ping q)
  | close : Twin limit .close .close
  | idle {f g : Frame} (hf : f.isIdle limit = true) (hg : g.isIdle limit = true) : Twin limit f g

theorem Frame.Twin.refl (limit : Nat) (f : Frame) : f.Twin limit f := by
  cases f with
  | text s =>
    rcases hread : WorkerMessage.ofFrame limit s with e | ⟨r⟩
    · have hidle : (Frame.text s).isIdle limit = true := by simp [isIdle, hread, Except.isOk,
        Except.toBool]
      exact .idle hidle hidle
    · exact .result hread hread rfl
  | binary p => exact .idle rfl rfl
  | ping p => exact .ping rfl
  | pong p => exact .idle rfl rfl
  | close => exact .close

/-- Frames of the server of one sort and length. -/
inductive Frame.Even : Frame → Frame → Prop where
  | text {s t : String} (size : t.utf8ByteSize = s.utf8ByteSize) : Even (.text s) (.text t)
  | binary {p q : List UInt8} (length : q.length = p.length) : Even (.binary p) (.binary q)
  | ping {p q : List UInt8} (length : q.length = p.length) : Even (.ping p) (.ping q)
  | pong {p q : List UInt8} (length : q.length = p.length) : Even (.pong p) (.pong q)
  | close : Even .close .close

theorem Frame.Even.refl (f : Frame) : f.Even f := by
  cases f with
  | text s => exact .text rfl
  | binary p => exact .binary rfl
  | ping p => exact .ping rfl
  | pong p => exact .pong rfl
  | close => exact .close

theorem Frame.Even.size {f g : Frame} (h : f.Even g) : g.size = f.size := by
  cases h with
  | text size => rw [Frame.size, Frame.size, payloadSize, payloadSize, size]
  | binary length => rw [Frame.size, Frame.size, payloadSize, payloadSize, length]
  | ping length => rw [Frame.size, Frame.size, payloadSize, payloadSize, length]
  | pong length => rw [Frame.size, Frame.size, payloadSize, payloadSize, length]
  | close => rfl

/-- Links with frames that come to the same, or are of one sort and length, in both pipes. -/
structure Link.Twin (limit : Nat) (l k : Link) : Prop where
  room : k.room = l.room
  incoming : List.Forall₂ (Frame.Twin limit) l.incoming k.incoming
  outgoing : List.Forall₂ Frame.Even l.outgoing k.outgoing
  serverGone : k.serverGone = l.serverGone
  reading : k.peer.reading = l.peer.reading
  gone : k.peer.gone = l.peer.gone
  closing : k.peer.closing = l.peer.closing
  finished : k.peer.finished = l.peer.finished

namespace Link.Twin

variable {limit : Nat} {l k : Link}

theorem refl (limit : Nat) (l : Link) : Link.Twin limit l l where
  room := rfl
  incoming := List.forall₂_same.mpr fun f _ => .refl limit f
  outgoing := List.forall₂_same.mpr fun f _ => .refl f
  serverGone := rfl
  reading := rfl
  gone := rfl
  closing := rfl
  finished := rfl

theorem unread (h : Link.Twin limit l k) : k.unread = l.unread := by
  have hsizes : List.Forall₂ Eq (l.outgoing.map Frame.size) (k.outgoing.map Frame.size) :=
    List.rel_map (fun _ _ he => he.size.symm) h.outgoing
  rw [List.forall₂_eq_eq_eq] at hsizes
  rw [Link.unread, Link.unread, hsizes]

theorem isBlocked (h : Link.Twin limit l k) : k.isBlocked = l.isBlocked := by
  rw [Link.isBlocked, Link.isBlocked, h.reading, h.gone, h.room, h.unread]

theorem write (h : Link.Twin limit l k) {f g : Frame} (even : f.Even g) :
    Link.Twin limit (l.write f) (k.write g) :=
  { h with outgoing := List.rel_append h.outgoing (.cons even .nil) }

theorem fitting {fs gs : List Frame} (h : List.Forall₂ Frame.Even fs gs) (room : Nat) :
    List.Forall₂ Frame.Even (Link.fitting room fs) (Link.fitting room gs) := by
  induction h generalizing room with
  | nil => exact .nil
  | @cons f g fs gs even _ ih =>
    rw [Link.fitting, Link.fitting, even.size]
    split
    · exact .cons even (ih _)
    · exact .nil

theorem dropServer (h : Link.Twin limit l k) : Link.Twin limit l.dropServer k.dropServer := by
  refine { h with serverGone := rfl, outgoing := ?_ }
  simp only [Link.dropServer, h.reading, h.room]
  split
  · exact h.outgoing
  · exact fitting h.outgoing l.room

/-- A worker that answers a ping or a close says what the server does not answer, or a close. -/
theorem answer (h : Link.Twin limit l k) {f g : Frame} (twin : f.Twin limit g) :
    Link.Twin limit (l.answer f) (k.answer g) := by
  unfold Link.answer
  rw [h.closing]
  split
  · exact h
  · exact { h with incoming := List.rel_append h.incoming (.cons twin .nil) }

theorem finish (h : Link.Twin limit l k) : Link.Twin limit l.finish k.finish :=
  { h with finished := rfl }

theorem peerRead (h : Link.Twin limit l k) :
    Option.Rel (Link.Twin limit) l.peerRead k.peerRead := by
  unfold Link.peerRead
  rw [h.gone, h.finished, h.reading]
  split
  · exact .none
  · have hout := h.outgoing
    generalize l.outgoing = fs, k.outgoing = gs at hout ⊢
    cases hout with
    | nil =>
      dsimp only
      rw [h.serverGone]
      split
      · exact .some h.finish
      · exact .none
    | @cons f g rest more even hrest =>
      have hread (r q : Report) :
          Link.Twin limit ({ l with outgoing := rest }.report r)
            ({ k with outgoing := more }.report q) := { h with outgoing := hrest }
      have hgone (r q : Report) : ({ k with outgoing := more }.report q).serverGone =
        ({ l with outgoing := rest }.report r).serverGone := h.serverGone
      cases even with
      | text size => exact .some (hread _ _)
      | binary length => exact .some (hread _ _)
      | pong length => exact .some (hread _ _)
      | @ping p q length =>
        dsimp only
        rw [hgone (.frame (.ping p)) (.frame (.ping q))]
        split
        · exact .some (hread _ _).finish
        · exact .some ((hread _ _).answer (.idle rfl rfl))
      | close =>
        dsimp only
        rw [hgone (.frame .close) (.frame .close)]
        split
        · have hnext := hread (.frame .close) (.frame .close)
          exact .some { hnext with closing := rfl, finished := rfl }
        · have hnext := (hread (.frame .close) (.frame .close)).answer .close
          exact .some { hnext with closing := rfl, finished := rfl }

end Link.Twin

/-! ### Connections -/

/-- Read loops that stand at the same place, with events that are twins. -/
inductive Reader.Twin : Reader → Reader → Prop where
  | waiting (sinceMs : Nat) : Twin (.waiting sinceMs) (.waiting sinceMs)
  | offering {e f : WorkEvent} (h : e.Twin f) : Twin (.offering e) (.offering f)
  | queued {e f : WorkEvent} (h : e.Twin f) : Twin (.queued e) (.queued f)
  | granted {e f : WorkEvent} (h : e.Twin f) : Twin (.granted e) (.granted f)
  | leaving : Twin .leaving .leaving
  | stopped : Twin .stopped .stopped

theorem Reader.Twin.stopped_beq {r q : Reader} (h : r.Twin q) :
    (q == .stopped) = (r == .stopped) := by
  cases h <;> rfl

/-- Connections whose loops stand at the same places, with messages of one length. -/
structure Connection.Twin (c d : Connection) : Prop where
  key : d.key = c.key
  generation : d.generation = c.generation
  link : d.link = c.link
  outbox : List.Forall₂ ServerMessage.Twin c.outbox d.outbox
  stopSignals : d.stopSignals = c.stopSignals
  reader : c.reader.Twin d.reader
  writer : d.writer = c.writer
  nextPingMs : d.nextPingMs = c.nextPingMs

namespace Connection.Twin

variable {c d : Connection}

theorem shutdown (h : c.Twin d) : d.shutdown = c.shutdown := by
  rw [Connection.shutdown, Connection.shutdown, h.stopSignals]

theorem isStopped (h : c.Twin d) : d.isStopped = c.isStopped := by
  rw [Connection.isStopped, Connection.isStopped, h.reader.stopped_beq, h.writer]

theorem offer (h : c.Twin d) (hub : HubSettings) : d.offer hub = c.offer hub := by
  rw [Connection.offer, Connection.offer, h.writer, h.outbox.length_eq]

end Connection.Twin

/-! ### Servers -/

/-- Work queues with the same slots and as many events, one by one twins. -/
structure WorkQueue.Twin (q p : WorkQueue) : Prop where
  items : List.Forall₂ WorkEvent.Twin q.items p.items
  free : p.free = q.free
  waiting : p.waiting = q.waiting
  abandoned : p.abandoned = q.abandoned

/-- Servers that differ in contents only. -/
structure Twin (s t : Server) : Prop where
  hub : t.hub = s.hub
  payout : t.payout = s.payout
  clock : t.clock = s.clock
  registry : t.registry = s.registry
  connections : List.Forall₂ Connection.Twin s.connections t.connections
  links : List.Forall₂ (Link.Twin s.hub.maxFrameBytes) s.links t.links
  queue : s.queue.Twin t.queue
  workSenders : t.workSenders = s.workSenders
  aggregator : t.aggregator = s.aggregator
  rewards : List.Forall₂ RewardEvent.Twin s.rewards t.rewards
  rewardSenders : t.rewardSenders = s.rewardSenders
  notifier : t.notifier = s.notifier
  books : t.store.books = s.store.books
  upgrades : t.upgrades = s.upgrades

namespace Twin

variable {s t : Server}

theorem connection? (h : Twin s t) (g : Nat) :
    Option.Rel Connection.Twin (s.connection? g) (t.connection? g) :=
  rel_find? h.connections fun c d hcd => by rw [hcd.generation]

theorem link? (h : Twin s t) (n : Nat) :
    Option.Rel (Link.Twin s.hub.maxFrameBytes) (s.link? n) (t.link? n) := rel_getElem? h.links n

/-! ### Bookkeeping -/

/-- What is counted, reported and planned may differ. -/
theorem noted (h : Twin s t) (m n : Tally) (ms ns : List Notice) (ts us : List Task) :
    Twin { s with tally := m, notices := ms, agenda := ts }
      { t with tally := n, notices := ns, agenda := us } := { h with }

theorem wakeAll (h : Twin s t) (ts us : List Task) : Twin (s.wakeAll ts) (t.wakeAll us) := by
  obtain ⟨first, hs⟩ := exists_wakeAll ts s
  obtain ⟨second, ht⟩ := exists_wakeAll us t
  rw [hs, ht]
  exact h.noted s.tally t.tally s.notices t.notices first second

theorem wake (h : Twin s t) (a b : Task) : Twin (s.wake a) (t.wake b) := h.wakeAll [a] [b]

theorem bump (h : Twin s t) (m n : Metric) : Twin (s.bump m) (t.bump n) :=
  h.noted _ _ s.notices t.notices s.agenda t.agenda

theorem note (h : Twin s t) (m n : Notice) : Twin (s.note m) (t.note n) :=
  h.noted s.tally t.tally _ _ s.agenda t.agenda

theorem showConnected (h : Twin s t) : Twin s.showConnected t.showConnected :=
  h.noted _ _ s.notices t.notices s.agenda t.agenda

theorem modifyConnection (h : Twin s t) (g : Nat) {f f' : Connection → Connection}
    (hf : ∀ c d, c.Twin d → (f c).Twin (f' d)) :
    Twin (s.modifyConnection g f) (t.modifyConnection g f') := by
  refine { h with connections := List.rel_map (fun c d hcd => ?_) h.connections }
  rw [hcd.generation]
  split
  · exact hf c d hcd
  · exact hcd

theorem modifyLink (h : Twin s t) (n : Nat) {f f' : Link → Link}
    (hf : ∀ l k, Link.Twin s.hub.maxFrameBytes l k → Link.Twin s.hub.maxFrameBytes (f l) (f' k)) :
    Twin (s.modifyLink n f) (t.modifyLink n f') :=
  { h with links := rel_modify h.links hf n }

theorem dropLink (h : Twin s t) (n : Nat) : Twin (s.dropLink n) (t.dropLink n) :=
  (h.modifyLink n fun _ _ hl => hl.dropServer).wake _ _

theorem wakeLoops (h : Twin s t) (n : Nat) : Twin (s.wakeLoops n) (t.wakeLoops n) := by
  unfold Server.wakeLoops
  split <;> split
  · exact h.wakeAll _ _
  · exact h.wakeAll _ []
  · exact h.wakeAll [] _
  · exact h

/-! ### Coming and going -/

/-- The registry is the same in both, whatever becomes of it. -/
theorem setRegistry (h : Twin s t) (r : Registry) :
    Twin { s with registry := r } { t with registry := r } := { h with registry := rfl }

theorem tellStop (h : Twin s t) (g : Nat) : Twin (s.tellStop g) (t.tellStop g) := by
  refine (h.modifyConnection g fun c d hcd => ?_).wakeAll _ _
  exact { hcd with stopSignals := congrArg (· + 1) hcd.stopSignals }

theorem tellStopAll (h : Twin s t) (gs : List Nat) :
    Twin (s.tellStopAll gs) (t.tellStopAll gs) := by
  unfold Server.tellStopAll
  induction gs generalizing s t with
  | nil => exact h
  | cons g rest ih => exact ih (h.tellStop g)

theorem replace (h : Twin s t) (key : WorkerKey) (old : Option Nat) :
    Twin (s.replace key old) (t.replace key old) := by
  cases old with
  | none => exact h
  | some g => exact ((h.note _ _).bump _ _).tellStop g

theorem start (h : Twin s t) (key : WorkerKey) (g link : Nat) :
    (Connection.start s key g link).Twin (Connection.start t key g link) := by
  have hping : t.clock.monoMs + t.hub.keepaliveIntervalMs =
      s.clock.monoMs + s.hub.keepaliveIntervalMs := by rw [h.clock, h.hub]
  refine ⟨rfl, rfl, rfl, .nil, rfl, ?_, rfl, hping⟩
  show (Reader.waiting s.clock.monoMs).Twin (Reader.waiting t.clock.monoMs)
  rw [h.clock]
  exact .waiting _

theorem join (h : Twin s t) (key : WorkerKey) (g link : Nat) :
    Twin { s with
        connections := s.connections ++ [Connection.start s key g link]
        workSenders := s.workSenders ++ [.reader g] }
      { t with
        connections := t.connections ++ [Connection.start t key g link]
        workSenders := t.workSenders ++ [.reader g] } :=
  { h with
    connections := List.rel_append h.connections (.cons (h.start key g link) .nil)
    workSenders := congrArg (· ++ [Sender.reader g]) h.workSenders }

theorem register (h : Twin s t) (key : WorkerKey) (link : Nat) :
    (t.register key link).1 = (s.register key link).1 ∧
      Twin (s.register key link).2 (t.register key link).2 := by
  unfold Server.register
  rw [h.registry]
  rcases s.registry.register key with ⟨- | ⟨g, old⟩, r⟩
  · exact ⟨rfl, h.dropLink link⟩
  · have hready := ((h.setRegistry r).replace key old).showConnected
    exact ⟨rfl, ((hready.join key g link).wakeAll _ _).bump _ _⟩

theorem unregister (h : Twin s t) (key : WorkerKey) :
    Twin (s.unregister key).2 (t.unregister key).2 := by
  unfold Server.unregister
  rw [h.registry]
  rcases s.registry.unregister key with ⟨- | g, r⟩
  · exact h
  · exact ((h.setRegistry r).tellStop g).showConnected

theorem release (h : Twin s t) (key : WorkerKey) (g : Nat) :
    Twin (s.release key g).2 (t.release key g).2 := by
  unfold Server.release
  rw [h.registry]
  rcases s.registry.release key g with ⟨- | -, r⟩
  · exact h
  · exact ((h.setRegistry r).tellStop g).showConnected

theorem dropWorkSender (h : Twin s t) (x : Sender) :
    Twin (s.dropWorkSender x) (t.dropWorkSender x) :=
  { h with workSenders := congrArg (List.erase · x) h.workSenders }

theorem dropRewardSender (h : Twin s t) (x : Sender) :
    Twin (s.dropRewardSender x) (t.dropRewardSender x) :=
  { h with rewardSenders := congrArg (List.erase · x) h.rewardSenders }

theorem closeHub (h : Twin s t) : Twin s.closeHub.2 t.closeHub.2 := by
  unfold Server.closeHub
  rw [h.registry]
  exact ((((h.setRegistry _).dropWorkSender .hub).tellStopAll _).showConnected).wake _ _

/-! ### Messages -/

theorem offer (h : Twin s t) (g : Nat) {m n : ServerMessage} (hmn : m.Twin n) :
    (t.offer g n).1 = (s.offer g m).1 ∧ Twin (s.offer g m).2 (t.offer g n).2 := by
  have hconnection := h.connection? g
  unfold Server.offer
  generalize s.connection? g = found, t.connection? g = found' at hconnection ⊢
  cases hconnection with
  | none => exact ⟨rfl, h⟩
  | @some c d hcd =>
    dsimp only
    rw [h.hub, hcd.offer]
    cases c.offer s.hub with
    | accepted =>
      refine ⟨rfl, (h.modifyConnection g fun c d hcd => ?_).wake _ _⟩
      exact { hcd with outbox := List.rel_append hcd.outbox (.cons hmn .nil) }
    | full => exact ⟨rfl, h⟩
    | closed => exact ⟨rfl, h⟩

theorem sendTo (h : Twin s t) (key : WorkerKey) {m n : ServerMessage} (hmn : m.Twin n) :
    (t.sendTo key n).1 = (s.sendTo key m).1 ∧ Twin (s.sendTo key m).2 (t.sendTo key n).2 := by
  unfold Server.sendTo
  rw [h.registry]
  cases s.registry.find key with
  | none => exact ⟨rfl, h⟩
  | some g =>
    obtain ⟨hanswer, htwin⟩ := h.offer g hmn
    dsimp only
    rcases hs : s.offer g m with ⟨o, s'⟩
    rcases ht : t.offer g n with ⟨o', t'⟩
    rw [hs, ht] at hanswer htwin
    obtain rfl : o' = o := hanswer
    cases o' with
    | accepted => exact ⟨rfl, htwin⟩
    | full => exact ⟨rfl, htwin.bump _ _⟩
    | closed => exact ⟨rfl, htwin⟩

theorem offerAll (h : Twin s t) {m n : ServerMessage} (hmn : m.Twin n) (gs : List Nat)
    (b : Broadcast) :
    Twin (Server.offerAll m gs b s).2 (Server.offerAll n gs b t).2 := by
  induction gs generalizing s t b with
  | nil => exact h
  | cons g rest ih =>
    obtain ⟨hanswer, htwin⟩ := h.offer g hmn
    simp only [Server.offerAll]
    rw [hanswer]
    exact ih htwin _

theorem broadcast (h : Twin s t) {m n : ServerMessage} (hmn : m.Twin n) :
    Twin (s.broadcast m).2 (t.broadcast n).2 := by
  have htwin := h.offerAll hmn (s.registry.live.map (·.2)) {}
  unfold Server.broadcast
  rw [h.registry]
  dsimp only
  split <;> split
  · exact htwin
  · exact htwin.noted _ _ _ _ _ _
  · exact htwin.noted _ _ _ _ _ _
  · exact htwin.noted _ _ _ _ _ _

end Twin

end Server

end Foreman
