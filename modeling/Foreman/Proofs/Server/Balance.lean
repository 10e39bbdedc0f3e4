/-
The counters of a server balance.

Whatever a server counts is also to be seen from outside: connections in what the hub
answers, frames at the sockets, events at the work queue and rewards at the queue behind it.
`Enrolled` says of the counters of connections what a history of the hub makes of them, and
`Metered` says of those of frames and events what an observer's ledger makes of them.  Both are
kept by every action, since `countStep_act` leaves three things that are counted at all.

What comes of the frames is not in a counter.  It is in the ledger, connection by connection,
and `Accounted.produced` adds the connections up.
-/
import Mathlib.Algebra.BigOperators.Group.Finset.Basic
import Foreman.Proofs.Server.Counting
import Foreman.Proofs.Server.Drain

namespace Foreman

/-- How many of some events a store records, one after the other. -/
def Store.recordings : List WorkEvent → Store → Nat
  | [], _ => 0
  | e :: es, store =>
    (store.recordWork e).1.isOk.toNat + recordings es (store.recordWork e).2

theorem Store.recordings_concat (es : List WorkEvent) (e : WorkEvent) (store : Store) :
    store.recordings (es ++ [e]) =
      store.recordings es + ((store.recordAll es).recordWork e).1.isOk.toNat := by
  induction es generalizing store with
  | nil => exact Nat.add_comm _ _
  | cons d rest ih =>
    rw [List.cons_append, recordings, recordings, ih, Nat.add_assoc]
    rfl

/-- The metric counts connections. -/
def Metric.countsConnections : Metric → Bool
  | connectedWorkers => true
  | connections => true
  | connectionsReplaced => true
  | _ => false

theorem Metric.countsTraffic_of_connections {m : Metric} (h : m.countsConnections = true) :
    m.countsTraffic = true := by
  cases m with
  | connectedWorkers => rfl
  | connections => rfl
  | connectionsReplaced => rfl
  | _ => simp [Metric.countsConnections] at h

namespace Server

/-! ### Frames -/

namespace Frame

/-- The frame is a text. -/
def isText : Frame → Bool
  | text _ => true
  | _ => false

/-- The frame is binary. -/
def isBinary : Frame → Bool
  | binary _ => true
  | _ => false

/-- The frame is a text that says no message of a worker. -/
def isUndecodable (limit : Nat) : Frame → Bool
  | text t => !(WorkerMessage.ofFrame limit t).isOk
  | _ => false

end Frame

section

variable (limit : Nat)

theorem count_counted_framesIn (frames : List Frame) :
    (frames.flatMap (Frame.counted limit)).count .framesIn = frames.countP Frame.isText := by
  induction frames with
  | nil => rfl
  | cons f rest ih =>
    rw [List.flatMap_cons, List.count_append, ih, List.countP_cons, Nat.add_comm]
    cases f with
    | text t => cases h : WorkerMessage.ofFrame limit t <;> simp [Frame.counted, Frame.isText, h]
    | _ => rfl

theorem count_counted_framesRejected (frames : List Frame) :
    (frames.flatMap (Frame.counted limit)).count .framesRejected =
      frames.countP (Frame.isUndecodable limit) + frames.countP Frame.isBinary := by
  induction frames with
  | nil => rfl
  | cons f rest ih =>
    rw [List.flatMap_cons, List.count_append, ih, List.countP_cons, List.countP_cons]
    cases f with
    | text t =>
      cases h : WorkerMessage.ofFrame limit t <;>
        simp [Frame.counted, Frame.isUndecodable, Frame.isBinary, Except.isOk, Except.toBool, h]
      omega
    | binary p =>
      simp [Frame.counted, Frame.isUndecodable, Frame.isBinary]
      omega
    | _ => simp [Frame.counted, Frame.isUndecodable, Frame.isBinary]

theorem count_counted_other {m : Metric} (hin : m ≠ .framesIn) (hrejected : m ≠ .framesRejected)
    (frames : List Frame) : (frames.flatMap (Frame.counted limit)).count m = 0 := by
  rw [List.count_eq_zero, List.mem_flatMap]
  rintro ⟨f, -, hm⟩
  cases f with
  | text t => cases h : WorkerMessage.ofFrame limit t <;> simp_all [Frame.counted]
  | binary p => simp_all [Frame.counted]
  | _ => simp [Frame.counted] at hm

end

/-! ### Connections -/

/-- The connections that an operation took from their keys with none to follow them: those that
an answer counts, or one if the answer is that there was one. -/
def HubEvent.removed : HubEvent → Nat
  | unregistered _ held => held.toNat
  | released _ _ held => held.toNat
  | closed count => count
  | _ => 0

/-- The counters of connections stand as the history `log` says. -/
structure Enrolled (log : List HubEvent) (s : Server) : Prop where
  registered : s.tally.get .connections = (log.filterMap HubEvent.generation?).length
  /-- Who was registered is live, or was replaced, or was taken away. -/
  balance : s.tally.get .connections =
    s.connectedCount + s.tally.get .connectionsReplaced + (log.map HubEvent.removed).sum
  gauge : s.tally.get .connectedWorkers = s.connectedCount

namespace Enrolled

variable {log : List HubEvent} {s s' : Server}

/-- One answer more. -/
theorem concat (ok : Enrolled log s) {e : HubEvent}
    (registered : s'.tally.get .connections =
      s.tally.get .connections + e.generation?.toList.length)
    (balance : s'.connectedCount + s'.tally.get .connectionsReplaced + e.removed =
      s.connectedCount + s.tally.get .connectionsReplaced + e.generation?.toList.length)
    (gauge : s'.tally.get .connectedWorkers = s'.connectedCount) :
    Enrolled (log ++ [e]) s' := by
  have hgiven : ((log ++ [e]).filterMap HubEvent.generation?).length =
      (log.filterMap HubEvent.generation?).length + e.generation?.toList.length := by
    rw [List.filterMap_append, List.length_append]
    cases h : e.generation? <;> simp [h]
  have hremoved : ((log ++ [e]).map HubEvent.removed).sum =
      (log.map HubEvent.removed).sum + e.removed := by simp
  refine ⟨?_, ?_, gauge⟩
  · rw [registered, hgiven, ok.registered]
  · have hbalance := ok.balance
    omega

/-- What the hub does not see and what counts no connection. -/
theorem between (ok : Enrolled log s) (hub : SameHub s s')
    (h : ∀ m : Metric, m.countsConnections = true → s'.tally.get m = s.tally.get m) :
    Enrolled log s' := by
  have hcount : s'.connectedCount = s.connectedCount := congrArg Registry.count hub.registry
  refine ⟨?_, ?_, ?_⟩
  · rw [h .connections rfl]
    exact ok.registered
  · rw [h .connections rfl, h .connectionsReplaced rfl, hcount]
    exact ok.balance
  · rw [h .connectedWorkers rfl, hcount]
    exact ok.gauge

theorem of_tallies (ok : Enrolled log s) (hub : SameHub s s') {ms : List Metric}
    (h : Tallies ms s s') (others : ∀ m : Metric, m.countsConnections = true → ms.count m = 0) :
    Enrolled log s' := by
  refine ok.between hub fun m hm => ?_
  rw [h m (Metric.countsTraffic_of_connections hm), others m hm, Nat.add_zero]

theorem register (ok : Enrolled log s) (hopen : s.registry.isOpen = true)
    (hk : (s.registry.live.map (·.1)).Nodup) (key : WorkerKey) (link : Nat) :
    Enrolled (log ++ [.registered key (s.registry.lastGeneration + 1)])
      (s.register key link).2 := by
  have htally := tally_register hopen key link
  have hcount : (s.register key link).2.connectedCount = (s.registry.erase key).count + 1 := by
    rw [connectedCount, registry_register hopen]
    simp [Registry.register, hopen, Registry.count, Registry.erase]
  have herase : (s.registry.erase key).count + (s.registry.find key).toList.length =
      s.connectedCount := Registry.count_erase hk key
  have hreplaced : (s.register key link).2.tally.get .connectionsReplaced =
      s.tally.get .connectionsReplaced + (s.registry.find key).toList.length := by
    rw [htally]
    cases s.registry.find key <;> simp [Tally.bump, Tally.get_add, Tally.get_set]
  refine ok.concat ?_ ?_ ?_
  · rw [htally]
    cases s.registry.find key <;>
      simp [Tally.bump, Tally.get_add, Tally.get_set, HubEvent.generation?]
  · simp only [hreplaced, hcount, HubEvent.generation?, HubEvent.removed, Option.toList_some,
      List.length_singleton]
    omega
  · rw [htally, Tally.bump, Tally.get_add_of_ne (by simp), Tally.get_set, if_pos rfl,
      connectedCount, registry_register hopen]

/-- A key that is taken from its holder leaves one connection less. -/
theorem evict (ok : Enrolled log s) (hk : (s.registry.live.map (·.1)).Nodup) {key : WorkerKey}
    {g : Nat} (hfind : s.registry.find key = some g)
    (registry : s'.registry = s.registry.erase key)
    (tally : s'.tally = s.tally.set .connectedWorkers (s.registry.erase key).count)
    {e : HubEvent} (hgiven : e.generation? = none) (hremoved : e.removed = 1) :
    Enrolled (log ++ [e]) s' := by
  have herase : (s.registry.erase key).count + (s.registry.find key).toList.length =
      s.connectedCount := Registry.count_erase hk key
  have hcount : s'.connectedCount = (s.registry.erase key).count := by
    rw [connectedCount, registry]
  rw [hfind] at herase
  refine ok.concat ?_ ?_ ?_
  · simp [tally, Tally.get_set, hgiven]
  · simp only [tally, Tally.get_set, hgiven, hremoved, hcount, reduceCtorEq, if_false]
    simp only [Option.toList_some, Option.toList_none, List.length_nil, List.length_singleton]
      at herase ⊢
    omega
  · simp [tally, Tally.get_set, hcount]

/-- An operation that finds nothing to do. -/
theorem idle (ok : Enrolled log s) (registry : s'.registry = s.registry)
    (tally : s'.tally = s.tally) {e : HubEvent} (hgiven : e.generation? = none)
    (hremoved : e.removed = 0) : Enrolled (log ++ [e]) s' := by
  have hcount : s'.connectedCount = s.connectedCount := congrArg Registry.count registry
  refine ok.concat ?_ ?_ ?_
  · simp [tally, hgiven]
  · simp [tally, hgiven, hremoved, hcount]
  · rw [tally, hcount]
    exact ok.gauge

/-- **Every operation of the hub keeps its counters in balance.** -/
theorem op (ok : Enrolled log s) (hk : (s.registry.live.map (·.1)).Nodup) (o : HubOp) :
    Enrolled (log ++ [(o.run s).1]) (o.run s).2 := by
  cases o with
  | register key link =>
    cases hopen : s.registry.isOpen with
    | false =>
      simp only [HubOp.run, register_of_closed hopen]
      exact ok.idle (quiet_dropLink link s).sameHub.registry (tally_dropLink link s) rfl rfl
    | true =>
      rw [run_register hopen]
      exact ok.register hopen hk key link
  | unregister key =>
    cases hfind : s.registry.find key with
    | none =>
      simp only [HubOp.run, unregister_of_free hfind]
      exact ok.idle rfl rfl rfl rfl
    | some g =>
      obtain ⟨hheld, hregistry, -⟩ := unregister_of_find hfind
      refine ok.evict hk hfind hregistry ((tally_unregister key s).trans ?_) rfl ?_
      · rw [hfind, Option.elim_some]
      · simp [HubOp.run, HubEvent.removed, hheld]
  | release key g =>
    by_cases hfind : s.registry.find key = some g
    · obtain ⟨hheld, hregistry, -⟩ := release_of_find hfind
      refine ok.evict hk hfind hregistry ((tally_release key g s).trans (if_pos hfind)) rfl ?_
      simp [HubOp.run, HubEvent.removed, hheld]
    · simp only [HubOp.run, release_of_find_ne hfind]
      exact ok.idle rfl rfl rfl rfl
  | close =>
    have hnone : s.closeHub.2.connectedCount = 0 := by
      rw [connectedCount, registry_closeHub]
      rfl
    have hall : s.closeHub.1 = s.connectedCount := by
      simp [closeHub, Registry.close, connectedCount, Registry.count]
    refine ok.concat ?_ ?_ ?_
    · simp [HubOp.run, tally_closeHub, Tally.get_set, HubEvent.generation?]
    · simp only [HubOp.run, tally_closeHub, Tally.get_set, HubEvent.generation?,
        HubEvent.removed, hnone, hall, reduceCtorEq, if_false, Option.toList_none,
        List.length_nil]
      omega
    · simp [HubOp.run, tally_closeHub, Tally.get_set, hnone]

end Enrolled

section

variable {a : Action} {log : List HubEvent} {l : Ledger} {store : Store} {s s' : Server}

theorem count_counted_event {m : Metric} (hevents : m ≠ .workEvents) (herrors : m ≠ .statsErrors)
    (e : WorkEvent) (store : Store) : (store.counted e).count m = 0 := by
  unfold Store.counted
  split <;> simp [Ne.symm hevents, Ne.symm herrors]

/-- An action of a supervised server keeps the counters of connections in balance. -/
theorem Enrolled.act (ok : Enrolled log s) (hosted : Hosted s) (supervised : a.isSupervised = true) :
    Enrolled (log ++ (a.hubEvent? s).toList) (s.act a) := by
  have hsame := sameHub_act a s
  have hquiet (hub : a.hubOp? s = none) {ms : List Metric} (h : Tallies ms s (s.act a))
      (others : ∀ m : Metric, m.countsConnections = true → ms.count m = 0) :
      Enrolled (log ++ (a.hubEvent? s).toList) (s.act a) := by
    rw [hub, afterOp_none] at hsame
    rw [Action.hubEvent?, hub, Option.map_none, Option.toList_none, List.append_nil]
    exact ok.of_tallies hsame h others
  cases countStep_act supervised s with
  | hosts _ _ h =>
    cases hub : a.hubOp? s with
    | none =>
      rw [hub, afterOp_none] at h
      exact hquiet hub h fun m _ => rfl
    | some o =>
      rw [hub] at hsame h
      rw [Action.hubEvent?, hub, Option.map_some, Option.toList_some]
      exact (ok.op hosted.tended.keys o).of_tallies hsame h fun m _ => rfl
  | reads g taken hub _ _ h =>
    refine hquiet hub h fun m hm => ?_
    exact count_counted_other _ (by rintro rfl; cases hm) (by rintro rfl; cases hm) taken
  | records e hub _ _ h =>
    refine hquiet hub h fun m hm => ?_
    exact count_counted_event (by rintro rfl; cases hm) (by rintro rfl; cases hm) e s.store

theorem Enrolled.after (ok : Enrolled log s) (hosted : Hosted s) {actions : List Action}
    (supervised : ∀ a ∈ actions, a.isSupervised = true) :
    Enrolled (log ++ hubLog actions s) (s.after actions) := by
  induction actions generalizing log s with
  | nil => simpa [hubLog] using ok
  | cons a rest ih =>
    rw [List.forall_mem_cons] at supervised
    rw [hubLog, ← List.append_assoc]
    exact ih (ok.act hosted supervised.1) (hosted_act a hosted) supervised.2

/-! ### Frames and events -/

/-- The counters of frames and events stand as the ledger `l` says, with events that are handed
to the store `store`. -/
structure Metered (store : Store) (l : Ledger) (s : Server) : Prop where
  texts : s.tally.get .framesIn = l.frames.countP (·.2.isText)
  rejected : s.tally.get .framesRejected =
    l.frames.countP (·.2.isUndecodable s.hub.maxFrameBytes) + l.frames.countP (·.2.isBinary)
  events : s.tally.get .workEvents = l.consumed.length
  recorded : s.tally.get .workEvents = store.recordings l.consumed + s.tally.get .statsErrors

/-- An operation of the hub counts connections and nothing else. -/
theorem get_afterOp {m : Metric} (hm : m.countsConnections = false) (o : Option HubOp)
    (s : Server) : (s.afterOp o).tally.get m = s.tally.get m := by
  have hne {k : Metric} (hk : k.countsConnections = true) : k ≠ m :=
    ne_of_apply_ne Metric.countsConnections (by simp [hm, hk])
  have hset (t : Tally) (n : Nat) : (t.set .connectedWorkers n).get m = t.get m :=
    Tally.get_set_of_ne (hne rfl) n t
  have hadd {k : Metric} (hk : k.countsConnections = true) (t : Tally) :
      (t.bump k).get m = t.get m := Tally.get_add_of_ne (hne hk) 1 t
  cases o with
  | none => rfl
  | some o =>
    cases o with
    | register key link =>
      rw [afterOp_register]
      cases hopen : s.registry.isOpen with
      | false => rw [register_of_closed hopen, tally_dropLink]
      | true =>
        rw [tally_register hopen, hadd rfl, hset]
        cases s.registry.find key with
        | none => rfl
        | some g => exact hadd rfl _
    | unregister key =>
      show (s.unregister key).2.tally.get m = _
      rw [tally_unregister]
      cases s.registry.find key with
      | none => rfl
      | some g => exact hset _ _
    | release key g =>
      show (s.release key g).2.tally.get m = _
      rw [tally_release]
      split
      · exact hset _ _
      · rfl
    | close =>
      show s.closeHub.2.tally.get m = _
      rw [tally_closeHub, hset]

namespace Metered

variable {l' : Ledger}

/-- Where nothing is read and nothing consumed, the counters stay as they are. -/
theorem of_kept (ok : Metered store l s) (hub : s'.hub = s.hub) (frames : l'.frames = l.frames)
    (consumed : l'.consumed = l.consumed)
    (h : ∀ m : Metric, m.countsTraffic = true → m.countsConnections = false →
      s'.tally.get m = s.tally.get m) : Metered store l' s' := by
  refine ⟨?_, ?_, ?_, ?_⟩
  · rw [h .framesIn rfl rfl, frames]
    exact ok.texts
  · rw [h .framesRejected rfl rfl, frames, hub]
    exact ok.rejected
  · rw [h .workEvents rfl rfl, consumed]
    exact ok.events
  · rw [h .workEvents rfl rfl, h .statsErrors rfl rfl, consumed]
    exact ok.recorded

theorem reads (ok : Metered store l s) (hub : s'.hub = s.hub) {g : Nat} {taken : List Frame}
    (frames : l'.frames = l.frames ++ taken.map (g, ·)) (consumed : l'.consumed = l.consumed)
    (h : Tallies (taken.flatMap (Frame.counted s.hub.maxFrameBytes)) s s') :
    Metered store l' s' := by
  have hcountP (p : Frame → Bool) : (l.frames ++ taken.map (g, ·)).countP (fun x => p x.2) =
      l.frames.countP (fun x => p x.2) + taken.countP p := by
    rw [List.countP_append, List.countP_map]
    rfl
  have hkept {m : Metric} (htraffic : m.countsTraffic = true) (hin : m ≠ .framesIn)
      (hrejected : m ≠ .framesRejected) : s'.tally.get m = s.tally.get m := by
    rw [h m htraffic, count_counted_other _ hin hrejected, Nat.add_zero]
  refine ⟨?_, ?_, ?_, ?_⟩
  · rw [h _ rfl, count_counted_framesIn, frames, hcountP, ok.texts]
  · rw [h _ rfl, count_counted_framesRejected, frames, hub, hcountP, hcountP, ok.rejected]
    omega
  · rw [hkept rfl (by simp) (by simp), consumed]
    exact ok.events
  · rw [hkept rfl (by simp) (by simp), hkept rfl (by simp) (by simp), consumed]
    exact ok.recorded

theorem records (ok : Metered store l s) (hub : s'.hub = s.hub) {e : WorkEvent}
    (frames : l'.frames = l.frames) (consumed : l'.consumed = l.consumed ++ [e])
    (hstore : s.store = store.recordAll l.consumed) (h : Tallies (s.store.counted e) s s') :
    Metered store l' s' := by
  have hevent : (s.store.counted e).count .workEvents = 1 := by
    unfold Store.counted
    split <;> rfl
  -- an event is either recorded or counted as an error
  have honce : (s.store.recordWork e).1.isOk.toNat + (s.store.counted e).count .statsErrors = 1 := by
    unfold Store.counted
    cases (s.store.recordWork e).1 <;> rfl
  have hkept {m : Metric} (htraffic : m.countsTraffic = true) (hevents : m ≠ .workEvents)
      (herrors : m ≠ .statsErrors) : s'.tally.get m = s.tally.get m := by
    rw [h m htraffic, count_counted_event hevents herrors, Nat.add_zero]
  refine ⟨?_, ?_, ?_, ?_⟩
  · rw [hkept rfl (by simp) (by simp), frames]
    exact ok.texts
  · rw [hkept rfl (by simp) (by simp), frames, hub]
    exact ok.rejected
  · rw [h _ rfl, hevent, consumed, ok.events, List.length_append, List.length_singleton]
  · rw [h _ rfl, h _ rfl, hevent, consumed, Store.recordings_concat, ← hstore, ok.recorded]
    omega

/-- An action of a supervised server keeps the counters of frames and events in balance. -/
theorem act (ok : Metered store l s) (hosted : Hosted s)
    (hstore : s.store = store.recordAll l.consumed) (supervised : a.isSupervised = true) :
    Metered store (l.noting a s (s.act a)) (s.act a) := by
  have hhub := hub_act hosted a
  cases countStep_act supervised s with
  | hosts frames consumed h =>
    refine ok.of_kept hhub (frames l) (consumed l) fun m htraffic hm => ?_
    rw [h m htraffic, get_afterOp hm]
    rfl
  | reads g taken _ frames consumed h => exact ok.reads hhub (frames l) (consumed l) h
  | records e _ frames consumed h => exact ok.records hhub (frames l) (consumed l) hstore h

end Metered

theorem Metered.after (ok : Metered store l s) (drains : Drains store l s) (hosted : Hosted s)
    {actions : List Action} (supervised : ∀ a ∈ actions, a.isSupervised = true) :
    Metered store (ledger actions s l) (s.after actions) := by
  induction actions generalizing l s with
  | nil => exact ok
  | cons a rest ih =>
    rw [List.forall_mem_cons] at supervised
    exact ih (ok.act hosted drains.recorded supervised.1) (drains.act hosted supervised.1)
      (hosted_act a hosted) supervised.2

end

/-! ### What comes of the frames -/

/-- The events that the read loops have in hand. -/
def inHand (s : Server) : List WorkEvent := s.connections.flatMap (·.reader.held)

section

variable {α : Type} {rs : List Reading} {xs : List (Nat × α)}

/-- What is written down about the connections one by one is all that is written down. -/
theorem sum_length_entries (hn : (rs.map (·.generation)).Nodup)
    (h : ∀ g, g ∉ rs.map (·.generation) → entries g xs = []) :
    (rs.map fun x => (entries x.generation xs).length).sum = xs.length := by
  have hlength (g : Nat) : (entries g xs).length = (xs.map (·.1)).count g := by
    rw [entries, List.length_map, ← List.countP_eq_length_filter, List.count, List.countP_map]
    rfl
  have hall : ∀ g ∈ ((xs.map (·.1) : List Nat) : Multiset Nat),
      g ∈ (rs.map (·.generation)).toFinset := by
    intro g hg
    rw [List.mem_toFinset]
    by_contra hmem
    have hnone := hlength g
    rw [h g hmem, List.length_nil] at hnone
    exact List.count_eq_zero.mp hnone.symm hg
  calc (rs.map fun x => (entries x.generation xs).length).sum
      = ((rs.map (·.generation)).map fun g => (entries g xs).length).sum := by
        rw [List.map_map]
        rfl
    _ = ∑ g ∈ (rs.map (·.generation)).toFinset, (entries g xs).length :=
        (List.sum_toFinset _ hn).symm
    _ = ∑ g ∈ (rs.map (·.generation)).toFinset,
          ((xs.map (·.1) : List Nat) : Multiset Nat).count g :=
        Finset.sum_congr rfl fun g _ => by rw [hlength, Multiset.coe_count]
    _ = xs.length := by rw [Multiset.sum_count_eq_card hall, Multiset.coe_card, List.length_map]

/-- The same of entries of one kind. -/
theorem sum_countP_entries (hn : (rs.map (·.generation)).Nodup)
    (h : ∀ g, g ∉ rs.map (·.generation) → entries g xs = []) (p : α → Bool) :
    (rs.map fun x => (entries x.generation xs).countP p).sum = xs.countP fun x => p x.2 := by
  have hfilter (g : Nat) : entries g (xs.filter fun x => p x.2) = (entries g xs).filter p := by
    rw [entries, entries, List.filter_map, List.filter_filter, List.filter_filter]
    congr 1
    exact List.filter_congr fun x _ => Bool.and_comm _ _
  have hnone (g : Nat) (hg : g ∉ rs.map (·.generation)) :
      entries g (xs.filter fun x => p x.2) = [] := by
    rw [hfilter, h g hg]
    rfl
  have hsum := sum_length_entries hn hnone
  simp only [hfilter, ← List.countP_eq_length_filter] at hsum
  exact hsum

end

/-- A text that is not undecodable comes to one event, and no other frame to any. -/
theorem length_decodings (limit : Nat) (key : WorkerKey) (frames : List Frame) :
    (decodings limit key frames).length + frames.countP (Frame.isUndecodable limit) =
      frames.countP Frame.isText := by
  induction frames with
  | nil => rfl
  | cons f rest ih =>
    rw [decodings, List.flatMap_cons, List.length_append, List.countP_cons, List.countP_cons, ← ih,
      decodings]
    cases f with
    | text t =>
      cases h : WorkerMessage.ofFrame limit t <;>
        simp [decoded, Frame.isUndecodable, Frame.isText, Except.isOk, Except.toBool, h]
      all_goals omega
    | _ => simp [decoded, Frame.isUndecodable, Frame.isText]

/-- **What comes of the texts that were read**: each was undecodable or has come to one event,
which is on the work queue or past it, in the hands of a read loop, or lost. -/
theorem Accounted.produced {l : Ledger} {s : Server} (ok : Accounted l s) (hosted : Hosted s) :
    l.frames.countP (·.2.isText) = l.put.length + s.inHand.length + l.lost.length +
      l.frames.countP (·.2.isUndecodable s.hub.maxFrameBytes) := by
  have hn : (s.readings.map (·.generation)).Nodup := by
    rw [readings, List.map_map]
    exact hosted.nodup_generations
  have hframes := sum_countP_entries hn fun g hg => (ok.fresh g hg).1
  have hput := sum_length_entries hn fun g hg => (ok.fresh g hg).2.1
  have hlost := sum_length_entries hn fun g hg => (ok.fresh g hg).2.2
  have hheld : (s.readings.map (·.held.length)).sum = s.inHand.length := by
    rw [inHand, List.length_flatMap, readings, List.map_map]
    rfl
  have hone : ∀ x ∈ s.readings, (entries x.generation l.frames).countP Frame.isText =
      (entries x.generation l.put).length + x.held.length + (entries x.generation l.lost).length +
        (entries x.generation l.frames).countP (Frame.isUndecodable s.hub.maxFrameBytes) := by
    intro x hx
    rw [← length_decodings s.hub.maxFrameBytes x.key, ok.balance x hx, List.length_append,
      List.length_append]
  rw [← hframes, ← hframes, List.map_congr_left hone, List.sum_map_add, List.sum_map_add,
    List.sum_map_add, hput, hheld, hlost]

/-! ### Runs of a supervised server -/

/--
**The counters of a supervised server balance.**  Let anything happen to it, and look at it at
any time.  With the answers `log` of its hub and the ledger `l` of an observer

  * the connections that were registered are those that are live, those that were replaced, and
    those that were taken away by a call or by one of their loops, or by a close; and the gauge
    shows those that are live;
  * the texts that were read are those that could not be decoded, and one for each event that
    was put on the work queue, is in the hands of a read loop, or was lost with one; and the
    frames that were rejected are those texts and the binary frames;
  * the events that the aggregator has taken from the queue are those that the store has
    recorded and those that were counted as errors;
  * the rewards that were emitted were delivered, or went undelivered, or wait for the notifier.

This is about actions that happen at one stroke, one after the other.  While a store takes its
time an event is counted that it has not recorded yet, and calls of the hub that run side by
side may set the gauge in another order than that in which they had the registry; then it shows
an older number until the next call.
-/
theorem counters_balance (hub : HubSettings) (payout : Payout) (capacity : Nat) (store : Store)
    (clock : Clock) {actions : List Action}
    (supervised : ∀ a ∈ actions, a.isSupervised = true) :
    let s₀ := start hub payout capacity store clock
    let s := s₀.after actions
    let log := hubLog actions s₀
    let l := ledger actions s₀ {}
    let t := s.tally
    let undecodable := l.frames.countP (·.2.isUndecodable hub.maxFrameBytes)
    (HubRun log s ∧
      t.get .connections = (log.filterMap HubEvent.generation?).length ∧
      t.get .connections =
        s.connectedCount + t.get .connectionsReplaced + (log.map HubEvent.removed).sum ∧
      t.get .connectedWorkers = s.connectedCount) ∧
    (t.get .framesIn = l.frames.countP (·.2.isText) ∧
      t.get .framesIn = l.put.length + s.inHand.length + l.lost.length + undecodable ∧
      t.get .framesRejected = undecodable + l.frames.countP (·.2.isBinary)) ∧
    (l.put.map (·.2) = l.consumed ++ s.queue.items ∧ s.store = store.recordAll l.consumed ∧
      t.get .workEvents = l.consumed.length ∧
      t.get .workEvents = store.recordings l.consumed + t.get .statsErrors) ∧
    t.get .rewardsEmitted =
      t.get .rewardsDelivered + t.get .rewardsUndelivered + s.rewards.length := by
  intro s₀ s log l t undecodable
  have hrun₀ : HubRun [] s₀ := .start rfl rfl
  have hosted₀ : Hosted s₀ := ⟨[], hrun₀⟩
  have hrun : HubRun log s := hrun₀.after actions
  have hosted : Hosted s := ⟨log, hrun⟩
  have henrolled₀ : Enrolled [] s₀ := ⟨rfl, rfl, rfl⟩
  have henrolled : Enrolled log s := henrolled₀.after hosted₀ supervised
  have hdrains₀ : Drains store {} s₀ := drains_start hub payout capacity store clock
  have hdrains : Drains store l s := hdrains₀.after hosted₀ supervised
  have hmetered₀ : Metered store {} s₀ := ⟨rfl, rfl, rfl, rfl⟩
  have hmetered : Metered store l s := hmetered₀.after hdrains₀ hosted₀ supervised
  have haccount : Accounted l s := accounted_after hosted₀ (accounted_start rfl rfl) actions
  have hconsumer : s.queue.abandoned = false :=
    abandoned_after hosted₀ fun a ha => isAbandon_of_supervised (supervised a ha)
  have hhub : s.hub = hub := hub_after hosted₀ actions
  have hproduced := haccount.produced hosted
  have hrejected := hmetered.rejected
  rw [hhub] at hproduced hrejected
  exact ⟨⟨hrun, henrolled.registered, henrolled.balance, henrolled.gauge⟩,
    ⟨hmetered.texts, hmetered.texts.trans hproduced, hrejected⟩,
    ⟨haccount.queue hconsumer, hdrains.recorded, hmetered.events, hmetered.recorded⟩,
    hdrains.sound.balance⟩

/-- Two workers send results, one of them under a key without an owner and the other one with
two frames that say nothing.  The first result earns a reward, which reaches the connection
that has replaced the one that it came from; the other worker is unregistered. -/
example :
    let key : WorkerKey := ⟨"00000000-0000-0000-0000-000000000001:0"⟩
    let ownerless : WorkerKey := ⟨"rig"⟩
    let result : WorkResult := ⟨"request", ⟨2⟩, "hash", "work", 1⟩
    let text : Frame := .text (WorkerMessage.workResult result).toJson.print
    let actions : List Action := [
      .connect { room := 1000, incoming := [text, .text "?", .binary []] },
      .connect { room := 1000, incoming := [text] }, .connect { room := 1000 },
      .register key 0, .register ownerless 1, .step (.reader 1), .step (.reader 1),
      .step (.reader 1), .step (.reader 1), .step (.reader 2), .step (.reader 2),
      .step .aggregator, .step .aggregator, .register key 2, .step .notifier,
      .unregister ownerless]
    let s := (start {} {} 2 (.memory {}) (.atMs 5)).after actions
    s.tally.get .connections = 3 ∧ s.connectedCount = 1 ∧ s.tally.get .connectionsReplaced = 1 ∧
      s.tally.get .framesIn = 3 ∧ s.tally.get .framesRejected = 2 ∧
      s.tally.get .workEvents = 2 ∧ s.tally.get .statsErrors = 1 ∧
      s.tally.get .rewardsEmitted = 1 ∧ s.tally.get .rewardsDelivered = 1 := by
  decide +kernel

end Server

end Foreman
