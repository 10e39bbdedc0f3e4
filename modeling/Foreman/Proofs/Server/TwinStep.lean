/-
Twins stay twins, step by step.

A task looks at contents in three places: a read loop decodes a frame, the aggregator records
an event, and a write loop writes a message.  In twins the frames decode alike, what is
recorded goes by the key of an event alone, and the messages take the same room; so a task
of one of them has the next step exactly if that of the other has, and the steps lead to
twins again.
-/
import Foreman.Proofs.Server.Twin

namespace Foreman.Server

namespace Twin

variable {s t : Server} {c d : Connection} {l k : Link}

/-! ### Read loops -/

theorem setReader (h : Twin s t) (g : Nat) {r q : Reader} (hr : r.Twin q) :
    Twin (s.setReader g r) (t.setReader g q) :=
  h.modifyConnection g fun _ _ hcd => { hcd with reader := hr }

theorem readOn (h : Twin s t) (g : Nat) : Twin (s.readOn g) (t.readOn g) := by
  unfold Server.readOn
  rw [h.clock]
  exact h.setReader g (.waiting _)

/-- A frame that the server does nothing about is counted at most. -/
theorem exists_readFrame_of_idle {f : Frame} (idle : f.isIdle s.hub.maxFrameBytes = true)
    (c : Connection) :
    ∃ tally, s.readFrame c f = { s with tally := tally }.readOn c.generation := by
  cases f with
  | text text =>
    cases hread : WorkerMessage.ofFrame s.hub.maxFrameBytes text with
    | ok m => simp [Frame.isIdle, hread, Except.isOk, Except.toBool] at idle
    | error e =>
      refine ⟨(s.tally.bump .framesIn).bump .framesRejected, ?_⟩
      have hhub : (s.bump .framesIn).hub = s.hub := rfl
      simp only [readFrame, readText, hhub, hread]
      rfl
  | binary p => exact ⟨s.tally.bump .framesRejected, rfl⟩
  | ping p => cases idle
  | pong p => exact ⟨s.tally, rfl⟩
  | close => cases idle

theorem readFrame (h : Twin s t) (hcd : c.Twin d) {f g : Frame}
    (hfg : f.Twin s.hub.maxFrameBytes g) : Twin (s.readFrame c f) (t.readFrame d g) := by
  cases hfg with
  | @result text text' r q hs ht hash =>
    have hhub : (s.bump .framesIn).hub = s.hub := rfl
    have hhub' : (t.bump .framesIn).hub = s.hub := h.hub
    simp only [Server.readFrame, readText, hhub, hhub', hs, ht, hcd.generation]
    exact (h.bump _ _).setReader _ (.offering ⟨hcd.key, hash⟩)
  | ping length =>
    simp only [Server.readFrame, hcd.link, hcd.generation]
    exact ((h.modifyLink c.link fun l k hlk => hlk.write (.pong length)).wake _ _).readOn _
  | close =>
    simp only [Server.readFrame, hcd.generation]
    exact h.setReader _ .leaving
  | idle hf hg =>
    rw [← h.hub] at hg
    obtain ⟨tally, hs⟩ := exists_readFrame_of_idle hf c
    obtain ⟨tally', ht⟩ := exists_readFrame_of_idle hg d
    rw [hs, ht, hcd.generation]
    exact (h.noted tally tally' s.notices t.notices s.agenda t.agenda).readOn _

theorem readWaiting (h : Twin s t) (hcd : c.Twin d) (hlk : Link.Twin s.hub.maxFrameBytes l k)
    (since : Nat) : Option.Rel Twin (s.readWaiting c l since) (t.readWaiting d k since) := by
  unfold Server.readWaiting
  rw [hcd.shutdown, hcd.generation]
  split
  · exact .some (h.setReader _ .leaving)
  · have hincoming := hlk.incoming
    generalize l.incoming = fs, k.incoming = gs at hincoming ⊢
    cases hincoming with
    | nil =>
      dsimp only
      rw [hlk.gone, h.hub, h.clock]
      split
      · exact .some ((h.bump _ _).setReader _ .leaving)
      · split
        · exact .some ((h.bump _ _).setReader _ .leaving)
        · exact .none
    | cons hfg hrest =>
      refine .some ?_
      rw [hcd.link]
      refine readFrame (h.modifyLink c.link fun l k hlk => ?_) hcd hfg
      exact { hlk with incoming := hrest }

theorem setQueue (h : Twin s t) {q p : WorkQueue} (hqp : q.Twin p) :
    Twin { s with queue := q } { t with queue := p } := { h with queue := hqp }

theorem pushEvent (h : Twin s t) (hcd : c.Twin d) {e f : WorkEvent} (hef : e.Twin f) :
    Twin (s.pushEvent c e) (t.pushEvent d f) := by
  unfold Server.pushEvent
  rw [hcd.generation]
  have hpushed : (s.queue.push e).Twin (t.queue.push f) :=
    { h.queue with items := List.rel_append h.queue.items (.cons hef .nil) }
  exact ((h.setQueue hpushed).wake _ _).readOn _

theorem grantSlot (h : Twin s t) (next : Option Nat) :
    Twin (s.grantSlot next) (t.grantSlot next) := by
  cases next with
  | none => exact h
  | some g =>
    refine (h.modifyConnection g fun c d hcd => ?_).wake _ _
    have hreader := hcd.reader
    generalize c.reader = r, d.reader = q at hreader ⊢
    cases hreader with
    | queued hef => exact { hcd with reader := .granted hef }
    | _ => exact hcd

theorem release_queue {q p : WorkQueue} (h : q.Twin p) :
    p.release.1 = q.release.1 ∧ q.release.2.Twin p.release.2 := by
  unfold WorkQueue.release
  rw [h.waiting]
  rcases hwaiting : q.waiting with - | ⟨g, rest⟩
  · exact ⟨rfl, { h with free := congrArg (· + 1) h.free, waiting := rfl }⟩
  · exact ⟨rfl, { h with waiting := rfl }⟩

theorem take_queue {q p : WorkQueue} (h : q.Twin p) :
    Option.Rel (fun a b => a.1.Twin b.1 ∧ b.2.1 = a.2.1 ∧ a.2.2.Twin b.2.2) q.take p.take := by
  have hitems := h.items
  unfold WorkQueue.take
  generalize q.items = es, p.items = fs at hitems ⊢
  cases hitems with
  | nil => exact .none
  | cons hef hrest => exact .some ⟨hef, release_queue { h with items := hrest }⟩

theorem returnSlot (h : Twin s t) : Twin s.returnSlot t.returnSlot := by
  obtain ⟨hnext, hqueue⟩ := release_queue h.queue
  unfold Server.returnSlot
  dsimp only
  rw [hnext]
  exact (h.setQueue hqueue).grantSlot _

theorem acquire_queue {q p : WorkQueue} (h : q.Twin p) :
    Option.Rel WorkQueue.Twin q.acquire? p.acquire? := by
  simp only [WorkQueue.acquire?, h.free]
  split
  · exact .none
  · exact .some { h with free := rfl }

theorem readOffering (h : Twin s t) (hcd : c.Twin d) {e f : WorkEvent} (hef : e.Twin f) :
    Twin (s.readOffering c e) (t.readOffering d f) := by
  have hacquire := acquire_queue h.queue
  unfold Server.readOffering
  rw [hcd.shutdown, hcd.generation, h.queue.abandoned]
  split
  · exact h.setReader _ .leaving
  · generalize s.queue.acquire? = taken, t.queue.acquire? = taken' at hacquire ⊢
    cases hacquire with
    | none =>
      have hwaits : (s.queue.enqueue c.generation).Twin (t.queue.enqueue c.generation) :=
        { h.queue with waiting := congrArg (· ++ [c.generation]) h.queue.waiting }
      exact (h.setQueue hwaits).setReader _ (.queued hef)
    | some hqueue => exact (h.setQueue hqueue).pushEvent hcd hef

theorem readQueued (h : Twin s t) (hcd : c.Twin d) :
    Option.Rel Twin (s.readQueued c) (t.readQueued d) := by
  unfold Server.readQueued
  rw [hcd.shutdown, hcd.generation, h.queue.abandoned]
  split
  · have hforgot : (s.queue.forget c.generation).Twin (t.queue.forget c.generation) :=
      { h.queue with waiting := congrArg (List.filter (· ≠ c.generation)) h.queue.waiting }
    exact .some ((h.setQueue hforgot).setReader _ .leaving)
  · exact .none

theorem readGranted (h : Twin s t) (hcd : c.Twin d) {e f : WorkEvent} (hef : e.Twin f) :
    Twin (s.readGranted c e) (t.readGranted d f) := by
  unfold Server.readGranted
  rw [hcd.shutdown, hcd.generation, h.queue.abandoned]
  split
  · exact h.returnSlot.setReader _ .leaving
  · exact h.pushEvent hcd hef

theorem afterStop (h : Twin s t) (hcd : c.Twin d) : Twin (s.afterStop c) (t.afterStop d) := by
  have hconnection := h.connection? c.generation
  unfold Server.afterStop
  rw [hcd.generation]
  generalize s.connection? c.generation = found, t.connection? c.generation = found'
    at hconnection ⊢
  cases hconnection with
  | none => exact h
  | some hcd' =>
    dsimp only
    rw [hcd'.isStopped, hcd'.link]
    split
    · exact h.dropLink _
    · exact h

theorem readLeaving (h : Twin s t) (hcd : c.Twin d) : Twin (s.readLeaving c) (t.readLeaving d) := by
  unfold Server.readLeaving
  rw [hcd.key, hcd.generation]
  have hstopped := (h.release c.key c.generation).setReader c.generation .stopped
  exact ((hstopped.dropWorkSender _).afterStop hcd).wake _ _

/-- **A step of a read loop.** -/
theorem readAs (h : Twin s t) (hcd : c.Twin d) : Option.Rel Twin (s.readAs c) (t.readAs d) := by
  have hreader := hcd.reader
  unfold Server.readAs
  rw [hcd.link]
  generalize c.reader = r, d.reader = q at hreader ⊢
  cases hreader with
  | waiting since => exact rel_bind (h.link? c.link) fun _ _ hlk => h.readWaiting hcd hlk since
  | offering hef => exact .some (h.readOffering hcd hef)
  | queued => exact h.readQueued hcd
  | granted hef => exact .some (h.readGranted hcd hef)
  | leaving => exact .some (h.readLeaving hcd)
  | stopped => exact .none

/-! ### Write loops -/

theorem setWriter (h : Twin s t) (g : Nat) (w : Writer) :
    Twin (s.setWriter g w) (t.setWriter g w) :=
  h.modifyConnection g fun _ _ hcd => { hcd with writer := rfl }

theorem writeFrame (h : Twin s t) (hcd : c.Twin d) {f g : Frame} (even : f.Even g) :
    Twin (s.writeFrame c f) (t.writeFrame d g) := by
  unfold Server.writeFrame
  rw [hcd.link]
  exact (h.modifyLink c.link fun _ _ hlk => hlk.write even).wake _ _

theorem beginClose (h : Twin s t) (hcd : c.Twin d) (hlk : Link.Twin s.hub.maxFrameBytes l k) :
    Twin (s.beginClose c l) (t.beginClose d k) := by
  unfold Server.beginClose
  rw [hlk.gone, hcd.generation, h.clock]
  split
  · exact h.setWriter _ _
  · exact (h.writeFrame hcd .close).setWriter _ _

theorem writeFailed (h : Twin s t) (hcd : c.Twin d) (isText : Bool) :
    Twin (s.writeFailed c isText) (t.writeFailed d isText) := by
  unfold Server.writeFailed
  rw [hcd.generation]
  cases isText with
  | false => exact h.setWriter _ _
  | true => exact (h.bump _ _).setWriter _ _

theorem send (h : Twin s t) (hcd : c.Twin d) (hlk : Link.Twin s.hub.maxFrameBytes l k)
    {f g : Frame} (even : f.Even g) (isText : Bool) :
    Twin (s.send c l f isText) (t.send d k g isText) := by
  unfold Server.send
  rw [hlk.gone, hcd.generation]
  split
  · exact h.writeFailed hcd isText
  · exact (h.writeFrame hcd even).setWriter _ _

theorem sendPing (h : Twin s t) (hcd : c.Twin d) (hlk : Link.Twin s.hub.maxFrameBytes l k) :
    Twin (s.sendPing c l) (t.sendPing d k) := by
  have hafter (n : Nat) : t.pingAfter n = s.pingAfter n := by
    rw [pingAfter, pingAfter, h.clock, h.hub]
  unfold Server.sendPing
  rw [hcd.generation]
  refine send (h.modifyConnection c.generation fun c d hcd => ?_) hcd hlk (.ping rfl) false
  exact { hcd with nextPingMs := by rw [hafter, hcd.nextPingMs] }

theorem sendMessage (h : Twin s t) (hcd : c.Twin d) (hlk : Link.Twin s.hub.maxFrameBytes l k)
    {m n : ServerMessage} (hmn : m.Twin n) : Twin (s.sendMessage c l m) (t.sendMessage d k n) := by
  have hsize : n.toJson.print.utf8ByteSize = m.toJson.print.utf8ByteSize := hmn
  unfold Server.sendMessage ServerMessage.frame TextFrame.encode
  dsimp only
  rw [h.hub, hsize]
  split <;> rename_i heq <;> split at heq <;> rename_i hlong <;> cases heq
  · rw [if_neg hlong]
    exact h.send hcd hlk (.text hsize) true
  · rw [if_pos hlong]
    exact h.note _ _

theorem writeIdle (h : Twin s t) (hcd : c.Twin d) (hlk : Link.Twin s.hub.maxFrameBytes l k) :
    Option.Rel Twin (s.writeIdle c l) (t.writeIdle d k) := by
  unfold Server.writeIdle
  rw [hcd.shutdown, hcd.nextPingMs, h.clock]
  split
  · exact .some (h.beginClose hcd hlk)
  · split
    · exact .some (h.sendPing hcd hlk)
    · have houtbox := hcd.outbox
      generalize c.outbox = ms, d.outbox = ns at houtbox ⊢
      cases houtbox with
      | nil => exact .none
      | cons hmn hrest =>
        refine .some ?_
        rw [hcd.generation]
        refine sendMessage (h.modifyConnection c.generation fun c d hcd => ?_) hcd hlk hmn
        exact { hcd with outbox := hrest }

theorem writeSending (h : Twin s t) (hcd : c.Twin d) (hlk : Link.Twin s.hub.maxFrameBytes l k)
    (isText : Bool) : Option.Rel Twin (s.writeSending c l isText) (t.writeSending d k isText) := by
  unfold Server.writeSending
  rw [hlk.gone, hlk.isBlocked, hcd.generation]
  split
  · exact .some (h.writeFailed hcd isText)
  · split
    · exact .none
    · cases isText with
      | false => exact .some (h.setWriter _ _)
      | true => exact .some ((h.bump _ _).setWriter _ _)

theorem writeClosing (h : Twin s t) (hcd : c.Twin d) (hlk : Link.Twin s.hub.maxFrameBytes l k)
    (untilMs : Nat) :
    Option.Rel Twin (s.writeClosing c l untilMs) (t.writeClosing d k untilMs) := by
  unfold Server.writeClosing
  rw [hlk.gone, hlk.isBlocked, hcd.generation, h.clock]
  split
  · exact .none
  · exact .some (h.setWriter _ _)

theorem writeLeaving (h : Twin s t) (hcd : c.Twin d) :
    Twin (s.writeLeaving c) (t.writeLeaving d) := by
  unfold Server.writeLeaving
  rw [hcd.key, hcd.generation]
  exact ((h.release c.key c.generation).setWriter _ _).afterStop hcd

/-- **A step of a write loop.** -/
theorem writeAs (h : Twin s t) (hcd : c.Twin d) : Option.Rel Twin (s.writeAs c) (t.writeAs d) := by
  unfold Server.writeAs
  rw [hcd.link, hcd.writer]
  refine rel_bind (h.link? c.link) fun l k hlk => ?_
  cases c.writer with
  | idle => exact h.writeIdle hcd hlk
  | sending isText => exact h.writeSending hcd hlk isText
  | closing untilMs => exact h.writeClosing hcd hlk untilMs
  | leaving => exact .some (h.writeLeaving hcd)
  | stopped => exact .none

/-! ### The aggregator and the notifier -/

theorem takeEvent (h : Twin s t) :
    Option.Rel (fun p q => p.1.Twin q.1 ∧ Twin p.2 q.2) s.takeEvent t.takeEvent := by
  refine rel_map (take_queue h.queue) fun (e, next, q) (f, next', p) hnext => ?_
  obtain ⟨hef, rfl, hqueue⟩ : e.Twin f ∧ next' = next ∧ q.Twin p := hnext
  exact ⟨hef, (h.setQueue hqueue).grantSlot _⟩

theorem rewardEvent (h : Twin s t) {e f : WorkEvent} (hef : e.Twin f) {u v : WorkTally}
    (total : v.providerResults = u.providerResults) :
    Twin (s.rewardEvent e u) (t.rewardEvent f v) := by
  have hpays : t.payout.pays v = s.payout.pays u := by
    rw [h.payout, Payout.pays, Payout.pays, total]
  unfold Server.rewardEvent
  rw [hpays]
  split
  · have hreward : (Payout.reward s.clock e u).Twin (Payout.reward t.clock f v) := by
      rw [h.clock]
      exact twin_reward hef s.clock total
    have hqueued : Twin { s with rewards := s.rewards ++ [Payout.reward s.clock e u] }
        { t with rewards := t.rewards ++ [Payout.reward t.clock f v] } :=
      { h with rewards := List.rel_append h.rewards (.cons hreward .nil) }
    exact (hqueued.bump _ _).wake _ _
  · exact h

theorem setStore (h : Twin s t) {a b : Store} (books : b.books = a.books) :
    Twin { s with store := a } { t with store := b } := { h with books := books }

theorem processEvent (h : Twin s t) {e f : WorkEvent} (hef : e.Twin f) :
    Twin (s.processEvent e) (t.processEvent f) := by
  have hs := s.store.books_recordWork e
  have ht := t.store.books_recordWork f
  rw [h.books, hef.key, ← hs] at ht
  have hstore (u : Server) : (u.bump .workEvents).store = u.store := rfl
  unfold Server.processEvent recordEvent
  rw [hstore, hstore]
  rcases hrs : s.store.recordWork e with ⟨u | u, a⟩ <;>
    rcases hrt : t.store.recordWork f with ⟨v | v, b⟩ <;>
    rw [hrs, hrt] at ht <;> obtain ⟨hanswer, hbooks⟩ := Prod.mk.inj ht <;> try cases hanswer
  · exact ((((h.bump _ _).setStore hbooks).bump _ _).note _ _)
  · exact ((h.bump _ _).setStore hbooks).rewardEvent hef (Option.some.inj hanswer)

theorem aggregateStep (h : Twin s t) : Option.Rel Twin s.aggregateStep t.aggregateStep := by
  have htake := h.takeEvent
  have hended : t.workEnded = s.workEnded := congrArg List.isEmpty h.workSenders
  unfold Server.aggregateStep
  rw [h.aggregator, hended]
  split
  · generalize s.takeEvent = taken, t.takeEvent = taken' at htake ⊢
    cases htake with
    | none =>
      dsimp only
      split
      · have hstopped : Twin { s with aggregator := some .stopped }
            { t with aggregator := some .stopped } := { h with aggregator := rfl }
        exact .some ((hstopped.dropRewardSender _).wake _ _)
      · exact .none
    | some hnext => exact .some (hnext.2.processEvent hnext.1)
  · exact .none

theorem deliver (h : Twin s t) {r q : RewardEvent} (hrq : r.Twin q) :
    Twin (s.deliver r) (t.deliver q) := by
  have htarget : q.target = r.target := congrArg Prod.fst hrq.terms
  obtain ⟨hanswer, htwin⟩ := h.sendTo r.target hrq.size
  unfold Server.deliver
  rw [htarget]
  rcases hs : s.sendTo r.target r.payload with ⟨a, s'⟩
  rcases ht : t.sendTo r.target q.payload with ⟨b, t'⟩
  rw [hs, ht] at hanswer htwin
  obtain rfl : b = a := hanswer
  cases b with
  | false => exact htwin.bump _ _
  | true => exact htwin.bump _ _

theorem notifyStep (h : Twin s t) : Option.Rel Twin s.notifyStep t.notifyStep := by
  have hrewards := h.rewards
  have hended : t.rewardsEnded = s.rewardsEnded := congrArg List.isEmpty h.rewardSenders
  have hrunning : t.notifier = .running ↔ s.notifier = .running := by rw [h.notifier]
  unfold Server.notifyStep
  simp only [hrunning, hended]
  split
  · have hstopped : Twin { s with notifier := .stopped } { t with notifier := .stopped } :=
      { h with notifier := rfl }
    generalize s.rewards = rs, t.rewards = qs at hrewards hstopped ⊢
    cases hrewards with
    | nil =>
      dsimp only
      split
      · exact .some hstopped
      · exact .none
    | @cons r q rest more hrq hrest =>
      have htaken : Twin { s with rewards := rest } { t with rewards := more } :=
        { h with rewards := hrest }
      exact .some (htaken.deliver hrq)
  · exact .none

/-! ### Upgraded connections and workers -/

theorem withdrawn (h : Twin s t) (u : WorkerKey × Nat) :
    Twin { s with upgrades := s.upgrades.erase u } { t with upgrades := t.upgrades.erase u } :=
  { h with upgrades := congrArg (List.erase · u) h.upgrades }

theorem takeUpgrade (h : Twin s t) (link : Nat) :
    Option.Rel (fun p q => q.1 = p.1 ∧ Twin p.2 q.2) (s.takeUpgrade link) (t.takeUpgrade link) := by
  unfold Server.takeUpgrade
  rw [h.upgrades]
  cases s.upgrades.find? (·.2 == link) with
  | none => exact .none
  | some u =>
    have hleft := h.withdrawn u
    rw [h.upgrades] at hleft
    exact .some ⟨rfl, hleft⟩

theorem upgradeStep (h : Twin s t) (link : Nat) :
    Option.Rel Twin (s.upgradeStep link) (t.upgradeStep link) := by
  have htake := h.takeUpgrade link
  unfold Server.upgradeStep
  generalize s.takeUpgrade link = taken, t.takeUpgrade link = taken' at htake ⊢
  cases htake with
  | none => exact .none
  | @some x y hnext =>
    obtain ⟨key, s'⟩ := x
    obtain ⟨key', t'⟩ := y
    obtain ⟨rfl, hleft⟩ : key' = key ∧ Twin s' t' := hnext
    obtain ⟨hanswer, htwin⟩ := hleft.register key' link
    dsimp only
    rcases hrs : s'.register key' link with ⟨o, s''⟩
    rcases hrt : t'.register key' link with ⟨o', t''⟩
    rw [hrs, hrt] at hanswer htwin
    obtain rfl : o' = o := hanswer
    cases o' with
    | none => exact .some (htwin.note _ _)
    | some g => exact .some htwin

theorem failUpgrade (h : Twin s t) (link : Nat) :
    Twin (s.failUpgrade link) (t.failUpgrade link) := by
  have htake := h.takeUpgrade link
  unfold Server.failUpgrade
  generalize s.takeUpgrade link = taken, t.takeUpgrade link = taken' at htake ⊢
  cases htake with
  | none => exact h
  | some hnext => exact (hnext.2.note _ _).dropLink link

theorem peerStep (h : Twin s t) (n : Nat) : Option.Rel Twin (s.peerStep n) (t.peerStep n) := by
  unfold Server.peerStep
  refine rel_bind (h.link? n) fun l k hlk => rel_map hlk.peerRead fun l' k' hlk' => ?_
  exact (h.modifyLink n fun _ _ _ => hlk').wakeLoops n

/-! ### Actions -/

/-- **A task of one of them can take a step if and only if that of the other can**, and they are
twins afterwards. -/
theorem step (h : Twin s t) (task : Task) : Option.Rel Twin (s.step task) (t.step task) := by
  cases task with
  | reader g =>
    rw [Server.step, Server.step, readStep_eq, readStep_eq]
    exact rel_bind (h.connection? g) fun _ _ hcd => h.readAs hcd
  | writer g =>
    rw [Server.step, Server.step, writeStep_eq, writeStep_eq]
    exact rel_bind (h.connection? g) fun _ _ hcd => h.writeAs hcd
  | peer n => exact h.peerStep n
  | upgrade link => exact h.upgradeStep link
  | aggregator => exact h.aggregateStep
  | notifier => exact h.notifyStep

theorem unaware (hcd : c.Twin d) : c.unaware.Twin d.unaware := { hcd with stopSignals := rfl }

theorem beforePing (hcd : c.Twin d) (nowMs : Nat) :
    (c.beforePing nowMs).Twin (d.beforePing nowMs) :=
  { hcd with nextPingMs := rfl }

theorem readEarly (h : Twin s t) (g : Nat) : Twin (s.act (.readEarly g)) (t.act (.readEarly g)) :=
  rel_getD (rel_bind (h.connection? g) fun _ _ hcd => h.readAs (unaware hcd)) h

theorem writeEarly (h : Twin s t) (g : Nat) (ping : Bool) :
    Twin (s.act (.writeEarly g ping)) (t.act (.writeEarly g ping)) := by
  refine rel_getD (rel_bind (h.connection? g) fun c d hcd => ?_) h
  rw [h.clock]
  cases ping with
  | true => exact h.writeAs (unaware hcd)
  | false => exact h.writeAs (beforePing (unaware hcd) _)

theorem upgrade (h : Twin s t) (key : WorkerKey) (link : Nat) :
    Twin (s.act (.upgrade key link)) (t.act (.upgrade key link)) := by
  have hwaits : Twin { s with upgrades := s.upgrades ++ [(key, link)] }
      { t with upgrades := t.upgrades ++ [(key, link)] } :=
    { h with upgrades := congrArg (· ++ [(key, link)]) h.upgrades }
  exact hwaits.wake _ _

theorem addLink (h : Twin s t) {l k : Link} (hlk : Link.Twin s.hub.maxFrameBytes l k) :
    Twin (s.addLink l).2 (t.addLink k).2 :=
  { h with links := List.rel_append h.links (.cons hlk .nil) }

theorem abandonQueue (h : Twin s t) : Twin s.abandonQueue t.abandonQueue := by
  have habandoned : WorkQueue.Twin { s.queue with abandoned := true, items := [] }
      { t.queue with abandoned := true, items := [] } :=
    { h.queue with abandoned := rfl, items := .nil }
  exact (h.setQueue habandoned).wakeAll _ _

theorem addReward (h : Twin s t) (r : RewardEvent) : Twin (s.addReward r) (t.addReward r) := by
  have hadded : Twin { s with rewards := s.rewards ++ [r] }
      { t with rewards := t.rewards ++ [r] } :=
    { h with rewards := List.rel_append h.rewards (.cons ⟨rfl, rfl⟩ .nil) }
  exact hadded.wake _ _

/-- What a worker does to its end of a socket. -/
theorem remote (h : Twin s t) (n : Nat) {l k : Link} (hlk : Link.Twin s.hub.maxFrameBytes l k) :
    Twin (s.act (.remote n l)) (t.act (.remote n k)) :=
  (h.modifyLink n fun _ _ _ => hlk).wakeLoops n

/-- **Twins stay twins** whatever is done to both. -/
theorem act (h : Twin s t) (a : Action) : Twin (s.act a) (t.act a) := by
  cases a with
  | step task => exact rel_getD (h.step task) h
  | readEarly g => exact h.readEarly g
  | writeEarly g ping => exact h.writeEarly g ping
  | register key link => exact (h.register key link).2
  | unregister key => exact h.unregister key
  | close => exact h.closeHub
  | sendTo key m => exact (h.sendTo key rfl).2
  | broadcast m => exact h.broadcast rfl
  | upgrade key link => exact h.upgrade key link
  | failUpgrade link => exact h.failUpgrade link
  | connect l => exact h.addLink (.refl _ l)
  | remote n l => exact h.remote n (.refl _ l)
  | clock c => exact { h with clock := rfl }
  | schedule agenda => exact h.noted s.tally t.tally s.notices t.notices agenda agenda
  | take => exact rel_getD (rel_map h.takeEvent fun _ _ hnext => hnext.2) h
  | abandon => exact h.abandonQueue
  | reward r => exact h.addReward r
  | endRewards => exact (h.dropRewardSender _).wake _ _

end Twin

end Foreman.Server
