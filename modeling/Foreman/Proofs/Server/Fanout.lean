/-
A broadcast against messages for single keys.

A broadcast offers its message to the connections that hold a key and counts at the end.  Whoever
sends the message to one live key after another has it counted call by call.  Either way a
connection is asked once, an offer to one connection is nothing to the others, and counting is
nothing to any of them, so both come to the same offers: `sendEach_eq` says this of the calls.

What is left of the order is the order in which the write loops are woken, and that is `Reordered`:
which of the tasks on the agenda has its turn first is open in any run.
-/
import Mathlib.Data.List.Perm.Basic
import Foreman.Proofs.Server.Outbox

namespace Foreman

/-! ### Counting in steps -/

namespace Tally

theorem setEntry_setEntry (m : Metric) (a b : Nat) (entries : List (Metric × Nat)) :
    setEntry m b (setEntry m a entries) = setEntry m b entries := by
  induction entries with
  | nil => simp [setEntry]
  | cons p r ih =>
    by_cases hp : p.1 = m
    · simp [setEntry, hp]
    · simp [setEntry, hp, ih]

/-- Adding twice is adding the sum. -/
theorem add_add (m : Metric) (a b : Nat) (t : Tally) : (t.add m a).add m b = t.add m (a + b) := by
  have hvalue : (t.add m a).get m = t.get m + a := by rw [get_add, if_pos rfl]
  rw [add, hvalue, add, add, set, set, set, setEntry_setEntry, Nat.add_assoc]

end Tally

namespace Server

/-- The server with so many refusals counted; none of them is not counted at all. -/
def dropping (n : Nat) (s : Server) : Server :=
  if n = 0 then s else { s with tally := s.tally.add .outboundDropped n }

theorem tally_dropping (n : Nat) (s : Server) :
    (s.dropping n).tally = if n = 0 then s.tally else s.tally.add .outboundDropped n := by
  rw [dropping, apply_ite Server.tally]

/-- A refusal that was counted before the others is one more. -/
theorem dropping_bump (n : Nat) (s : Server) :
    (s.bump .outboundDropped).dropping n = s.dropping (n + 1) := by
  rw [dropping, dropping, if_neg (Nat.succ_ne_zero n)]
  split
  · rename_i hn
    rw [hn]
    rfl
  · rw [bump, Tally.bump, Tally.add_add, Nat.add_comm]

/-! ### Offers and the agenda -/

/-- The servers differ at most in the order in which the tasks stand on the agenda. -/
def Reordered (s s' : Server) : Prop :=
  ∃ agenda, agenda.Perm s.agenda ∧ s' = { s with agenda := agenda }

theorem Reordered.dropping {s s' : Server} (h : Reordered s s') (n : Nat) :
    Reordered (s.dropping n) (s'.dropping n) := by
  obtain ⟨agenda, hperm, rfl⟩ := h
  unfold Server.dropping
  split
  · exact ⟨agenda, hperm, rfl⟩
  · exact ⟨agenda, hperm, rfl⟩

section

variable {s : Server} {m : ServerMessage}

/-- Offers change connections and put tasks on the agenda. -/
theorem offer_snd (g : Nat) (m : ServerMessage) (s : Server) :
    (s.offer g m).2 = { s with
      connections := (s.offer g m).2.connections
      agenda := (s.offer g m).2.agenda } := by
  rw [offer_eq]
  dsimp only
  split
  · unfold wake
    split <;> rfl
  · rfl

theorem offerAll_snd (m : ServerMessage) (gs : List Nat) (b : Broadcast) (s : Server) :
    (offerAll m gs b s).2 = { s with
      connections := (offerAll m gs b s).2.connections
      agenda := (offerAll m gs b s).2.agenda } := by
  induction gs generalizing b s with
  | nil => rfl
  | cons g rest ih =>
    rw [offerAll, ih, offer_snd]

/-- The write loops that are woken by offers: those that had something accepted for them and are
not on the agenda already. -/
def woken (gs : List Nat) (s : Server) : List Task :=
  ((gs.filter fun g => s.answer g = .accepted).map Task.writer).filter (· ∉ s.agenda)

theorem agenda_wake (t : Task) (s : Server) :
    (s.wake t).agenda = if t ∈ s.agenda then s.agenda else s.agenda ++ [t] := by
  rw [wake, apply_ite Server.agenda]

theorem agenda_offer (g : Nat) (m : ServerMessage) (s : Server) :
    (s.offer g m).2.agenda = s.agenda ++ s.woken [g] := by
  rw [offer_eq]
  dsimp only
  by_cases haccepts : s.answer g = .accepted
  · have hagenda : (s.modifyConnection g (·.given m)).agenda = s.agenda := rfl
    rw [if_pos haccepts, agenda_wake, hagenda]
    by_cases htask : Task.writer g ∈ s.agenda
    · simp [woken, haccepts, htask]
    · simp [woken, haccepts, htask]
  · simp [woken, haccepts]

theorem agenda_offerAll (m : ServerMessage) {gs : List Nat} (hgs : gs.Nodup) (b : Broadcast)
    (s : Server) : (offerAll m gs b s).2.agenda = s.agenda ++ s.woken gs := by
  induction gs generalizing b s with
  | nil => simp [offerAll, woken]
  | cons g rest ih =>
    obtain ⟨hg, hrest⟩ := List.nodup_cons.mp hgs
    have hothers : rest.filter (fun g' => (s.offer g m).2.answer g' = .accepted) =
        rest.filter fun g' => s.answer g' = .accepted :=
      List.filter_congr fun g' hg' => by
        rw [answer_offer (fun h : g' = g => hg (h ▸ hg')) m s]
    -- the first offer wakes nobody but its own connection
    have hagenda : ∀ t ∈ (rest.filter fun g' => s.answer g' = .accepted).map Task.writer,
        (t ∉ s.agenda ++ s.woken [g]) ↔ t ∉ s.agenda := by
      intro t ht
      obtain ⟨g', hg', rfl⟩ := List.mem_map.mp ht
      have hne : g' ≠ g := fun h => hg (h ▸ List.mem_of_mem_filter hg')
      have hnew : Task.writer g' ∉ s.woken [g] := by
        intro hmem
        obtain ⟨k, hk, heq⟩ := List.mem_map.mp (List.mem_of_mem_filter hmem)
        have hkg : k = g := List.mem_singleton.mp (List.mem_of_mem_filter hk)
        exact hne ((Task.writer.inj heq).symm.trans hkg)
      simp [hnew]
    rw [offerAll, ih hrest, woken, hothers, agenda_offer, List.append_assoc]
    congr 1
    rw [List.filter_congr fun t ht => decide_eq_decide.mpr (hagenda t ht)]
    rw [woken, woken, ← List.filter_append, ← List.map_append, ← List.filter_append]
    rfl

/-- **The order of the offers is the order of the agenda**, and nothing else. -/
theorem reordered_offerAll (hosted : Hosted s) (m : ServerMessage) {gs gs' : List Nat}
    (hperm : gs'.Perm gs) (hgs : gs.Nodup) (b b' : Broadcast) :
    Reordered (offerAll m gs b s).2 (offerAll m gs' b' s).2 := by
  have hgs' : gs'.Nodup := hperm.nodup_iff.mpr hgs
  have hconnections : (offerAll m gs' b' s).2.connections = (offerAll m gs b s).2.connections := by
    rw [connections_offerAll hosted m hgs', connections_offerAll hosted m hgs]
    simp only [hperm.mem_iff]
  refine ⟨(offerAll m gs' b' s).2.agenda, ?_, ?_⟩
  · rw [agenda_offerAll m hgs', agenda_offerAll m hgs]
    exact (((hperm.filter _).map _).filter _).append_left _
  · rw [offerAll_snd m gs' b', offerAll_snd m gs b, hconnections]

/-! ### One key after another -/

/-- Sends a message to one key after another; the answers, in the same order. -/
def sendEach (m : ServerMessage) : List WorkerKey → Server → List Bool × Server
  | [], s => ([], s)
  | key :: keys, s =>
    let (accepted, s) := s.sendTo key m
    let (others, s) := sendEach m keys s
    (accepted :: others, s)

/-- To count is nothing to an offer. -/
theorem offer_bump (g : Nat) (m : ServerMessage) (x : Metric) (s : Server) :
    (s.bump x).offer g m = ((s.offer g m).1, (s.offer g m).2.bump x) := by
  have hanswer : (s.bump x).answer g = s.answer g := rfl
  have hwake (v : Server) : (v.bump x).wake (.writer g) = (v.wake (.writer g)).bump x := by
    by_cases htask : Task.writer g ∈ v.agenda
    · rw [wake, wake, if_pos htask]
      exact if_pos htask
    · rw [wake, wake, if_neg htask]
      exact if_neg htask
  rw [offer_eq, offer_eq, hanswer]
  by_cases haccepts : s.answer g = .accepted
  · simp only [haccepts, if_true]
    exact congrArg (Prod.mk Offer.accepted) (hwake (s.modifyConnection g (·.given m)))
  · simp only [haccepts, if_false]

theorem offerAll_bump (m : ServerMessage) (gs : List Nat) (b : Broadcast) (x : Metric)
    (s : Server) : (offerAll m gs b (s.bump x)).2 = (offerAll m gs b s).2.bump x := by
  induction gs generalizing b s with
  | nil => rfl
  | cons g rest ih =>
    rw [offerAll, offer_bump, ih, offerAll]

/-- What the offers leave does not depend on what was counted before. -/
theorem offerAll_count (m : ServerMessage) (gs : List Nat) (b b' : Broadcast) (s : Server) :
    (offerAll m gs b s).2 = (offerAll m gs b' s).2 := by
  induction gs generalizing b b' s with
  | nil => rfl
  | cons g rest ih => exact ih _ _ _

/-- **Calls for live keys are offers to the connections that hold them**: each is answered as it
would be alone, and the refusals are counted. -/
theorem sendEach_eq (m : ServerMessage) {held : List (WorkerKey × Nat)} (s : Server)
    (hgs : (held.map (·.2)).Nodup) (hheld : ∀ p ∈ held, s.registry.find p.1 = some p.2) :
    s.sendEach m (held.map (·.1)) =
      (held.map fun p => decide (s.answer p.2 = .accepted),
        (offerAll m (held.map (·.2)) {} s).2.dropping
          ((held.map fun p => s.answer p.2).count .full)) := by
  induction held generalizing s with
  | nil => rfl
  | cons p rest ih =>
    obtain ⟨hp, hrest⟩ := List.nodup_cons.mp hgs
    have hfind : s.registry.find p.1 = some p.2 := hheld p List.mem_cons_self
    have hlater : ∀ q ∈ rest, s.registry.find q.1 = some q.2 :=
      fun q hq => hheld q (List.mem_cons_of_mem p hq)
    have hne : ∀ q ∈ rest, q.2 ≠ p.2 := fun q hq h => hp (List.mem_map.mpr ⟨q, hq, h⟩)
    have hstep : s.sendEach m ((p :: rest).map (·.1)) =
        (decide (s.answer p.2 = .accepted) :: ((s.sendTo p.1 m).2.sendEach m (rest.map (·.1))).1,
          ((s.sendTo p.1 m).2.sendEach m (rest.map (·.1))).2) := by
      rw [List.map_cons, sendEach, sendTo_eq, hfind]
    rw [hstep, sendTo_eq, hfind]
    dsimp only
    rw [List.map_cons, List.map_cons, List.map_cons, offerAll]
    dsimp only
    rw [offerAll_count m _ _ {}]
    by_cases hfull : s.answer p.2 = .full
    · -- nothing but the counter has changed
      have hsame : (s.offer p.2 m).2 = s := by rw [offer_eq]; simp [hfull]
      have hlater' : ∀ q ∈ rest, (s.bump .outboundDropped).registry.find q.1 = some q.2 := hlater
      rw [if_pos hfull, ih _ hrest hlater', offerAll_bump, dropping_bump, hsame, hfull,
        List.count_cons_self]
      rfl
    · have hregistry : (s.offer p.2 m).2.registry = s.registry := by rw [offer_snd]
      have hanswers : ∀ q ∈ rest, (s.offer p.2 m).2.answer q.2 = s.answer q.2 :=
        fun q hq => answer_offer (hne q hq) m s
      have haccepted : ∀ q ∈ rest, decide ((s.offer p.2 m).2.answer q.2 = .accepted) =
          decide (s.answer q.2 = .accepted) := fun q hq => by rw [hanswers q hq]
      rw [if_neg hfull, ih _ hrest (fun q hq => hregistry ▸ hlater q hq),
        List.map_congr_left haccepted, List.map_congr_left hanswers, List.count_cons_of_ne hfull]

/-! ### A broadcast in any order -/

/-- A broadcast that comes to the connections in an order of its own. -/
def broadcastIn (order : List Nat) (m : ServerMessage) (s : Server) : Nat × Server :=
  let (b, s) := offerAll m order {} s
  (b.accepted, if b.full = 0 then s else { s with tally := s.tally.add .outboundDropped b.full })

/-- A broadcast is offers, and one count of the refusals. -/
theorem broadcastIn_eq (m : ServerMessage) {order : List Nat} (horder : order.Nodup) (s : Server) :
    s.broadcastIn order m = ((order.map s.answer).count .accepted,
      (offerAll m order {} s).2.dropping ((order.map s.answer).count .full)) := by
  have hcounts := offerAll_fst m horder {} s
  rw [foldl_count] at hcounts
  unfold broadcastIn dropping
  generalize offerAll m order {} s = x at hcounts
  obtain ⟨b, s'⟩ := x
  obtain rfl : b = _ := hcounts
  dsimp only
  rw [Nat.zero_add, Nat.zero_add]

theorem broadcast_eq (hosted : Hosted s) (m : ServerMessage) :
    s.broadcast m = (((s.registry.live.map (·.2)).map s.answer).count .accepted,
      (offerAll m (s.registry.live.map (·.2)) {} s).2.dropping
        (((s.registry.live.map (·.2)).map s.answer).count .full)) :=
  broadcastIn_eq m hosted.tended.live_generations_nodup s

/-- **In whatever order a broadcast comes to the connections, it does the same.** -/
theorem broadcastIn_perm (hosted : Hosted s) (m : ServerMessage) {order : List Nat}
    (horder : order.Perm (s.registry.live.map (·.2))) :
    (s.broadcastIn order m).1 = (s.broadcast m).1 ∧
      Reordered (s.broadcast m).2 (s.broadcastIn order m).2 := by
  have hnodup := hosted.tended.live_generations_nodup
  rw [broadcastIn_eq m (horder.nodup_iff.mpr hnodup), broadcast_eq hosted]
  dsimp only
  rw [(horder.map s.answer).count_eq, (horder.map s.answer).count_eq]
  exact ⟨rfl, (reordered_offerAll hosted m horder hnodup {} {}).dropping _⟩

/-! ### Calls in any order -/

/-- Keys in any order come with the generations that hold them. -/
theorem exists_held {keys : List WorkerKey} {live : List (WorkerKey × Nat)}
    (hkeys : keys.Perm (live.map (·.1))) :
    ∃ held : List (WorkerKey × Nat), held.map (·.1) = keys ∧ held.Perm live := by
  have hsame : Relation.Comp (· = List.map (·.1) ·) List.Perm keys live ↔
      keys.Perm (live.map (·.1)) := by
    rw [List.eq_map_comp_perm]
  obtain ⟨held, hmap, hperm⟩ := hsame.mpr hkeys
  exact ⟨held, hmap.symm, hperm⟩

theorem sendTo_of_find {key : WorkerKey} {g : Nat} (h : s.registry.find key = some g)
    (m : ServerMessage) : (s.sendTo key m).1 = decide (s.answer g = .accepted) := by
  rw [sendTo_eq, h]

/-- What a broadcast adds to the messages of a connection. -/
theorem outbox_broadcast (hosted : Hosted s) (m : ServerMessage) (g : Nat) :
    (s.broadcast m).2.outbox g =
      s.outbox g ++ if g ∈ s.registry.live.map (·.2) ∧ s.answer g = .accepted then [m] else [] := by
  have hbalance := (forwards_act hosted g (.broadcast m)).balance
  have htaken : taken g (.broadcast m) s = [] := rfl
  rw [htaken, List.nil_append] at hbalance
  refine hbalance.symm.trans (congrArg _ ?_)
  rw [accepted, gets, offered]
  by_cases hlive : g ∈ s.registry.live.map (·.2)
  · by_cases haccepts : s.answer g = .accepted
    · rw [if_pos haccepts, if_pos hlive, if_pos ⟨hlive, haccepts⟩]
      rfl
    · rw [if_neg haccepts, if_neg (not_and_of_not_right _ haccepts)]
  · rw [if_neg hlive, if_neg (not_and_of_not_left _ hlive)]
    exact ite_self []

/-- Calls that say so were accepted, and, since nobody who is live is closed, the others found no
room. -/
theorem count_accepted (answers : List Offer) :
    (answers.map fun o => decide (o = .accepted)).count true = answers.count .accepted := by
  rw [List.count, List.countP_map, List.count]
  exact List.countP_congr fun o _ => by cases o <;> decide

theorem count_refused {answers : List Offer} (h : ∀ o ∈ answers, o ≠ .closed) :
    (answers.map fun o => decide (o = .accepted)).count false = answers.count .full := by
  rw [List.count, List.countP_map, List.count]
  refine List.countP_congr fun o ho => ?_
  have hopen := h o ho
  cases o with
  | closed => exact absurd rfl hopen
  | accepted => decide
  | full => decide

end

/--
**A broadcast is a message for each of the live keys.**  After any run, whatever message is
broadcast and in whatever order the live keys are called:

  * as many calls say that the message was accepted as the broadcast counts, and each call says
    what it would say alone;
  * the server is left the same, but for the order in which tasks stand on the agenda;
  * the refused calls are added to the counter of dropped messages, which is not touched if there
    are none;
  * the connection that holds a key gets the message once if the call for that key accepts it, and
    keeps its queue as it is otherwise; a connection that holds no key keeps its queue as it is;
  * and the order in which the broadcast itself comes to the connections does not matter either.
-/
theorem broadcast_sends_to_each (hub : HubSettings) (payout : Payout) (capacity : Nat)
    (store : Store) (clock : Clock) (consumer : Option Stage) (actions : List Action)
    (m : ServerMessage) :
    let s₀ : Server := { start hub payout capacity store clock with aggregator := consumer }
    let s := s₀.after actions
    let all := s.broadcast m
    (∀ keys : List WorkerKey, keys.Perm (s.registry.live.map (·.1)) →
      let calls := s.sendEach m keys
      all.1 = calls.1.count true ∧
      calls.1 = keys.map (fun key => (s.sendTo key m).1) ∧
      Reordered all.2 calls.2 ∧
      all.2.tally = (if calls.1.count false = 0 then s.tally
        else s.tally.add .outboundDropped (calls.1.count false))) ∧
    (∀ key g, s.registry.find key = some g →
      all.2.outbox g = if (s.sendTo key m).1 then s.outbox g ++ [m] else s.outbox g) ∧
    (∀ g, (∀ key, s.registry.find key ≠ some g) → all.2.outbox g = s.outbox g) ∧
    ∀ order : List Nat, order.Perm (s.registry.live.map (·.2)) →
      (s.broadcastIn order m).1 = all.1 ∧ Reordered all.2 (s.broadcastIn order m).2 := by
  intro s₀ s all
  have hosted₀ : Hosted s₀ := hosted_after rfl rfl []
  have hosted : Hosted s := hosted_after rfl rfl actions
  have heeded : Heeded s :=
    hosted₀.after_induction (fun a _ h ok => heeded_act h ok a) (heeded_start rfl) actions
  have hheld {key : WorkerKey} {g : Nat} :=
    Registry.find_eq_some (k := key) (g := g) hosted.tended.keys
  have hnodup := hosted.tended.live_generations_nodup
  refine ⟨?_, ?_, ?_, fun order horder => broadcastIn_perm hosted m horder⟩
  · intro keys hkeys calls
    obtain ⟨held, rfl, hperm⟩ := exists_held hkeys
    have hfind : ∀ p ∈ held, s.registry.find p.1 = some p.2 :=
      fun p hp => hheld.mpr (hperm.mem_iff.mp hp)
    have hgs : (held.map (·.2)).Perm (s.registry.live.map (·.2)) := hperm.map _
    let answers : List Offer := (held.map (·.2)).map s.answer
    have hanswers : answers.Perm ((s.registry.live.map (·.2)).map s.answer) := hgs.map _
    have hopen : ∀ o ∈ answers, o ≠ .closed := by
      intro o ho
      obtain ⟨g, hg, rfl⟩ := List.mem_map.mp ho
      obtain ⟨p, hp, rfl⟩ := List.mem_map.mp hg
      rw [answer_of_live hosted heeded (hfind p hp)]
      split <;> simp
    have hcalls : calls = (answers.map fun o => decide (o = .accepted),
        (offerAll m (held.map (·.2)) {} s).2.dropping (answers.count .full)) := by
      refine (sendEach_eq m s (hgs.nodup_iff.mpr hnodup) hfind).trans ?_
      simp only [answers, List.map_map, Function.comp_def]
    have hall : all = (answers.count .accepted,
        (offerAll m (s.registry.live.map (·.2)) {} s).2.dropping (answers.count .full)) := by
      rw [hanswers.count_eq, hanswers.count_eq]
      exact broadcast_eq hosted m
    rw [hcalls, hall]
    dsimp only
    rw [count_accepted, count_refused hopen]
    refine ⟨rfl, ?_, (reordered_offerAll hosted m hgs hnodup {} {}).dropping _, ?_⟩
    · simp only [answers, List.map_map]
      exact List.map_congr_left fun p hp => (sendTo_of_find (hfind p hp) m).symm
    · rw [tally_dropping, tally_offerAll]
  · intro key g hkey
    rw [sendTo_of_find hkey]
    have hlive : g ∈ s.registry.live.map (·.2) := List.mem_map_of_mem (hheld.mp hkey)
    have hbox := outbox_broadcast hosted m g
    by_cases haccepts : s.answer g = .accepted
    · rw [if_pos (decide_eq_true haccepts)]
      rwa [if_pos ⟨hlive, haccepts⟩] at hbox
    · rw [if_neg (by simpa using haccepts)]
      rwa [if_neg fun h => haccepts h.2, List.append_nil] at hbox
  · intro g hnone
    have hbox := outbox_broadcast hosted m g
    rwa [if_neg, List.append_nil] at hbox
    rintro ⟨hlive, -⟩
    obtain ⟨p, hp, rfl⟩ := List.mem_map.mp hlive
    exact hnone p.1 (hheld.mpr hp)

/-- One of two connections has no room: it is refused the message, and the other one gets it, whether
the message is broadcast or sent to one and then to the other. -/
theorem broadcast_sends_to_each_full :
    let m := ServerMessage.workGenerate ⟨"request", ⟨2⟩, "hash", 1⟩
    let actions := [.connect { room := 1000 }, .register ⟨"a"⟩ 0, .connect { room := 1000 },
      .register ⟨"b"⟩ 1, .sendTo ⟨"a"⟩ m]
    let s₀ : Server :=
      { start { outboundCapacity := 0 } {} 1 (.memory {}) (.atMs 0) with aggregator := some .running }
    let s := s₀.after actions
    let calls := s.sendEach m [⟨"b"⟩, ⟨"a"⟩]
    [⟨"b"⟩, ⟨"a"⟩].Perm (s.registry.live.map (·.1)) ∧
      calls.1 = [true, false] ∧ (s.broadcast m).1 = 1 ∧ Reordered (s.broadcast m).2 calls.2 ∧
      (s.broadcast m).2.tally.get .outboundDropped = 1 ∧
      (s.broadcast m).2.outbox 1 = s.outbox 1 ∧ (s.broadcast m).2.outbox 2 = [m] := by
  intro m actions s₀ s calls
  have hkeys : [⟨"b"⟩, ⟨"a"⟩].Perm (s.registry.live.map (·.1)) := by decide +kernel
  have hcalls : calls.1 = [true, false] := by decide +kernel
  obtain ⟨hall, houtboxes, -, -⟩ := broadcast_sends_to_each { outboundCapacity := 0 } {} 1
    (.memory {}) (.atMs 0) (some .running) actions m
  obtain ⟨hcount, -, hsame, -⟩ := hall _ hkeys
  refine ⟨hkeys, hcalls, hcount.trans (congrArg (List.count true) hcalls), hsame, ?_, ?_, ?_⟩
  · decide +kernel
  · refine (houtboxes ⟨"a"⟩ 1 (by decide +kernel)).trans (if_neg ?_)
    decide +kernel
  · refine (houtboxes ⟨"b"⟩ 2 (by decide +kernel)).trans ?_
    decide +kernel

end Server

end Foreman
