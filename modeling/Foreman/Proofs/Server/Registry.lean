/-
Which connection holds a key, and which ones were told to stop.

The hub answers four operations, each at one stroke: a key is registered, it is
taken away, one of a connection's loops lets go of it, or the hub is closed.
`HubRun` collects their answers, in whatever order they come, with anything
between them that leaves the registry and the stop signals alone.  What the
registry holds is then read off that history: a key belongs to whoever registered
it last and has not lost it since.

The invariant is `Tended`.  Connections are numbered in the order in which they
came, a live key belongs to a connection that was registered under it, and a
connection has been told to stop exactly if it is live no longer, and then once.
Of a connection it looks at nothing but its `Standing`, so whatever else the loops
do to connections is out of sight.
-/
import Mathlib.Data.List.Nodup
import Foreman.Proofs.Server.Frame

namespace Foreman.Server

/-! ### Looking up keys -/

namespace Registry

variable {r : Registry} {key k : WorkerKey} {g : Nat}

theorem find_eq_some (hk : (r.live.map (·.1)).Nodup) : r.find k = some g ↔ (k, g) ∈ r.live := by
  simp only [find, Option.map_eq_some_iff]
  constructor
  · rintro ⟨p, hp, rfl⟩
    have hkey : p.1 = k := by simpa using List.find?_some hp
    rw [← hkey]
    exact List.mem_of_find?_eq_some hp
  · intro hmem
    have hsome : (r.live.find? (·.1 == k)).isSome = true := by
      rw [List.find?_isSome]
      exact ⟨(k, g), hmem, by simp⟩
    obtain ⟨p, hp⟩ := Option.isSome_iff_exists.mp hsome
    have hkey : p.1 = k := by simpa using List.find?_some hp
    have heq : p = (k, g) :=
      List.inj_on_of_nodup_map hk (List.mem_of_find?_eq_some hp) hmem hkey
    exact ⟨p, hp, by rw [heq]⟩

/-- Without a key, the others are as they were. -/
theorem find_erase (r : Registry) (key k : WorkerKey) :
    (r.erase key).find k = if key = k then none else r.find k := by
  simp only [find, erase, List.find?_filter]
  by_cases h : key = k
  · rw [if_pos h, Option.map_eq_none_iff, List.find?_eq_none]
    intro p _
    simp [h]
  · rw [if_neg h]
    congr 2
    funext p
    by_cases hp : p.1 = k
    · simp [hp, Ne.symm h]
    · simp [hp]

/-- A registration gives the key away and touches no other. -/
theorem find_register (hopen : r.isOpen = true) (key k : WorkerKey) :
    (r.register key).2.find k = if key = k then some (r.lastGeneration + 1) else r.find k := by
  have hsplit : (r.register key).2.find k =
      ((r.erase key).find k).or (if key = k then some (r.lastGeneration + 1) else none) := by
    simp only [register, hopen, if_true, find, List.find?_append, Option.map_or]
    by_cases h : key = k <;> simp [h]
  rw [hsplit, find_erase]
  by_cases h : key = k <;> simp [h]

theorem register_of_closed (hclosed : r.isOpen = false) (key : WorkerKey) :
    r.register key = (none, r) := by
  simp [register, hclosed]

/-- A key that is taken away was live once or not at all. -/
theorem count_erase (hk : (r.live.map (·.1)).Nodup) (key : WorkerKey) :
    (r.erase key).count + (r.find key).toList.length = r.count := by
  have hheld : (r.live.map (·.1)).count key = (r.find key).toList.length := by
    cases hfind : r.find key with
    | none =>
      refine List.count_eq_zero.mpr fun hmem => ?_
      obtain ⟨p, hp, hkey⟩ := List.mem_map.mp hmem
      have hsome := (find_eq_some hk).mpr (show (key, p.2) ∈ r.live from hkey ▸ hp)
      simp [hfind] at hsome
    | some g =>
      refine List.count_eq_one_of_mem hk (List.mem_map.mpr ⟨(key, g), ?_, rfl⟩)
      exact (find_eq_some hk).mp hfind
  have herased : (r.live.filter fun p => !(p.1 != key)).length = (r.live.map (·.1)).count key := by
    rw [← List.countP_eq_length_filter, List.count, List.countP_map]
    exact List.countP_congr fun p _ => by simp
  calc (r.erase key).count + (r.find key).toList.length
      = (r.live.filter (·.1 != key)).length +
          (r.live.filter fun p => !(p.1 != key)).length := by rw [herased, hheld]; rfl
    _ = r.count := (r.live.length_eq_length_filter_add (·.1 != key)).symm

end Registry

/-! ### Signals -/

/-- One signal more for each time that the connection is named. -/
def Standing.told (generations : List Nat) (x : Standing) : Standing :=
  { x with stopSignals := x.stopSignals + generations.count x.generation }

@[simp] theorem told_key (gs : List Nat) (x : Standing) : (x.told gs).key = x.key := rfl

@[simp] theorem told_generation (gs : List Nat) (x : Standing) :
    (x.told gs).generation = x.generation := rfl

@[simp] theorem map_told_nil (xs : List Standing) : xs.map (Standing.told []) = xs :=
  List.map_id xs

theorem standings_tellStop (g : Nat) (s : Server) :
    (s.tellStop g).standings = s.standings.map (Standing.told [g]) := by
  rw [tellStop, (quiet_wakeAll _ _).sameHub.standings]
  simp only [standings, modifyConnection, List.map_map]
  refine List.map_congr_left fun c _ => ?_
  by_cases h : c.generation = g
  · simp [Connection.standing, Standing.told, h]
  · simp [Connection.standing, Standing.told, h, Ne.symm h]

@[simp] theorem registry_tellStop (g : Nat) (s : Server) :
    (s.tellStop g).registry = s.registry := by
  rw [tellStop, (quiet_wakeAll _ _).sameHub.registry]
  rfl

theorem standings_tellStopAll (gs : List Nat) (s : Server) :
    (s.tellStopAll gs).standings = s.standings.map (Standing.told gs) := by
  unfold tellStopAll
  induction gs generalizing s with
  | nil => simp
  | cons g rest ih =>
    rw [List.foldl_cons, ih, standings_tellStop, List.map_map]
    refine List.map_congr_left fun x _ => ?_
    simp only [Function.comp, Standing.told, List.count_cons, List.count_nil]
    congr 1
    omega

@[simp] theorem registry_tellStopAll (gs : List Nat) (s : Server) :
    (s.tellStopAll gs).registry = s.registry := by
  unfold tellStopAll
  induction gs generalizing s with
  | nil => rfl
  | cons g rest ih => rw [List.foldl_cons, ih, registry_tellStop]

/-! ### The invariant -/

/-- The registry `r` and the standings `xs` of its connections agree. -/
structure Tended (r : Registry) (xs : List Standing) : Prop where
  /-- A key is live once. -/
  keys : (r.live.map (·.1)).Nodup
  /-- Connections are numbered from one on, in the order in which they came. -/
  numbered : xs.map (·.generation) = List.range' 1 r.lastGeneration
  /-- A live key belongs to a connection that was registered under it. -/
  held : ∀ k g, r.find k = some g → ∃ x ∈ xs, x.key = k ∧ x.generation = g
  /-- Only a connection that is live no longer has been told to stop, and only once. -/
  signals : ∀ x ∈ xs, x.stopSignals = if r.find x.key = some x.generation then 0 else 1
  /-- No key is live once registrations are refused. -/
  closed : r.isOpen = false → r.live = []

namespace Tended

variable {r : Registry} {xs : List Standing}

theorem empty : Tended {} [] where
  keys := by simp
  numbered := rfl
  held := by simp [Registry.find]
  signals := by simp
  closed := fun _ => rfl

theorem nodup_generations (ok : Tended r xs) : (xs.map (·.generation)).Nodup := by
  rw [ok.numbered]
  exact List.nodup_range'

theorem eq_of_generation (ok : Tended r xs) {x y : Standing} (hx : x ∈ xs) (hy : y ∈ xs)
    (h : x.generation = y.generation) : x = y :=
  List.inj_on_of_nodup_map ok.nodup_generations hx hy h

/-- A generation is live under the key it was registered with, if at all. -/
theorem key_of_find (ok : Tended r xs) {x : Standing} (hx : x ∈ xs) {k : WorkerKey}
    (h : r.find k = some x.generation) : x.key = k := by
  obtain ⟨y, hy, hkey, hgen⟩ := ok.held k _ h
  rw [ok.eq_of_generation hx hy hgen.symm]
  exact hkey

theorem le_last (ok : Tended r xs) {x : Standing} (hx : x ∈ xs) :
    x.generation ≤ r.lastGeneration := by
  have hmem : x.generation ∈ xs.map (·.generation) := List.mem_map_of_mem hx
  rw [ok.numbered, List.mem_range'_1] at hmem
  omega

theorem live_generations_nodup (ok : Tended r xs) : (r.live.map (·.2)).Nodup := by
  refine List.Nodup.map_on ?_ (List.Nodup.of_map _ ok.keys)
  rintro ⟨k, g⟩ hk ⟨k', g'⟩ hk' (rfl : g = g')
  obtain ⟨x, hx, rfl, rfl⟩ := ok.held k g ((Registry.find_eq_some ok.keys).mpr hk)
  rw [ok.key_of_find hx ((Registry.find_eq_some ok.keys).mpr hk')]

/-- What is told to stop when a key loses its holder. -/
theorem count_holder (ok : Tended r xs) {x : Standing} (hx : x ∈ xs) (key : WorkerKey) :
    (r.find key).toList.count x.generation =
      if key = x.key ∧ r.find x.key = some x.generation then 1 else 0 := by
  by_cases h : r.find key = some x.generation
  · have hkey : x.key = key := ok.key_of_find hx h
    rw [if_pos ⟨hkey.symm, by rw [hkey]; exact h⟩, h]
    simp
  · rw [if_neg (by rintro ⟨rfl, hc⟩; exact h hc), List.count_eq_zero]
    intro hmem
    exact h (by simpa using hmem)

/-- A key that is taken away leaves the rest in order. -/
theorem evict (ok : Tended r xs) (key : WorkerKey) :
    Tended (r.erase key) (xs.map (Standing.told (r.find key).toList)) where
  keys := ok.keys.sublist (List.filter_sublist.map _)
  numbered := by
    rw [List.map_map]
    exact ok.numbered
  held k g h := by
    rw [Registry.find_erase] at h
    split at h
    · simp at h
    · obtain ⟨x, hx, hkey, hgen⟩ := ok.held k g h
      exact ⟨_, List.mem_map_of_mem hx, hkey, hgen⟩
  signals y hy := by
    obtain ⟨x, hx, rfl⟩ := List.mem_map.mp hy
    have hcount := ok.count_holder hx key
    have hsig := ok.signals x hx
    simp only [Standing.told, Registry.find_erase, hcount, hsig]
    by_cases hkey : key = x.key
    · by_cases hlive : r.find x.key = some x.generation <;> simp [hkey, hlive]
    · by_cases hlive : r.find x.key = some x.generation <;> simp [hkey, hlive]
  closed h := by simp [Registry.erase, ok.closed h]

/-- A new connection under a key that nobody holds. -/
theorem enrol (ok : Tended r xs) (hopen : r.isOpen = true) {key : WorkerKey}
    (hfree : r.find key = none) :
    Tended (r.register key).2 (xs ++ [⟨key, r.lastGeneration + 1, 0⟩]) where
  keys := by
    have hsub : ((r.erase key).live.map (·.1)).Nodup := ok.keys.sublist (List.filter_sublist.map _)
    simp only [Registry.register, hopen, if_true, List.map_append, List.map_cons, List.map_nil]
    refine List.Nodup.append hsub (by simp) ?_
    simp [List.disjoint_singleton, Registry.erase]
  numbered := by
    simp [Registry.register, hopen, ok.numbered, List.range'_concat]
    omega
  held k g h := by
    rw [Registry.find_register hopen] at h
    split at h
    · rename_i hkey
      obtain rfl := Option.some.inj h
      exact ⟨_, List.mem_append_right _ (List.mem_singleton_self _), hkey, rfl⟩
    · obtain ⟨x, hx, hx'⟩ := ok.held k g h
      exact ⟨x, List.mem_append_left _ hx, hx'⟩
  signals y hy := by
    rw [Registry.find_register hopen]
    rcases List.mem_append.mp hy with hx | hx
    · rw [ok.signals y hx]
      by_cases hkey : key = y.key
      · have hle := ok.le_last hx
        rw [if_pos hkey, ← hkey, hfree]
        simp
        omega
      · rw [if_neg hkey]
    · obtain rfl := List.mem_singleton.mp hx
      simp
  closed h := by simp [Registry.register, hopen] at h

/-- Closing takes every key away. -/
theorem close (ok : Tended r xs) :
    Tended r.close.2 (xs.map (Standing.told r.close.1)) where
  keys := by simp [Registry.close]
  numbered := by
    rw [List.map_map]
    exact ok.numbered
  held k g h := by simp [Registry.close, Registry.find] at h
  signals y hy := by
    obtain ⟨x, hx, rfl⟩ := List.mem_map.mp hy
    have hsig := ok.signals x hx
    have hcount : (r.live.map (·.2)).count x.generation =
        if r.find x.key = some x.generation then 1 else 0 := by
      by_cases hlive : r.find x.key = some x.generation
      · rw [if_pos hlive]
        refine List.count_eq_one_of_mem ok.live_generations_nodup ?_
        exact List.mem_map_of_mem ((Registry.find_eq_some ok.keys).mp hlive)
      · rw [if_neg hlive, List.count_eq_zero]
        intro hmem
        obtain ⟨⟨k, g⟩, hp, rfl⟩ := List.mem_map.mp hmem
        have hfind := (Registry.find_eq_some ok.keys).mpr hp
        rw [ok.key_of_find hx hfind] at hlive
        exact hlive hfind
    have hgone : r.close.2.find x.key = none := rfl
    simp only [told_key, told_generation, hgone, reduceCtorEq, if_false]
    simp only [Standing.told, Registry.close, hcount, hsig]
    by_cases hlive : r.find x.key = some x.generation <;> simp [hlive]
  closed _ := rfl

end Tended

/-! ### The operations

What each of them does to the registry and to the standings.  A registration
takes the key away from its holder first, so it is an eviction and an admission.
-/

theorem register_of_closed {s : Server} (h : s.registry.isOpen = false) (key : WorkerKey)
    (link : Nat) : s.register key link = (none, s.dropLink link) := by
  rw [register, Registry.register_of_closed h]

theorem register_fst {s : Server} (h : s.registry.isOpen = true) (key : WorkerKey) (link : Nat) :
    (s.register key link).1 = some (s.registry.lastGeneration + 1) := by
  simp [register, Registry.register, h]

theorem registry_replace (key : WorkerKey) (old : Option Nat) (s : Server) :
    (s.replace key old).registry = s.registry := by
  cases old with
  | none => rfl
  | some g => rw [replace, registry_tellStop]; rfl

theorem standings_replace (key : WorkerKey) (old : Option Nat) (s : Server) :
    (s.replace key old).standings = s.standings.map (Standing.told old.toList) := by
  cases old with
  | none => simp [replace]
  | some g => rw [replace, standings_tellStop]; rfl

theorem registry_register {s : Server} (h : s.registry.isOpen = true) (key : WorkerKey)
    (link : Nat) : (s.register key link).2.registry = (s.registry.register key).2 := by
  simp only [register, Registry.register, h, if_true]
  rw [bump, (quiet_wakeAll _ _).sameHub.registry]
  simp only [showConnected]
  rw [registry_replace]

theorem standings_register {s : Server} (h : s.registry.isOpen = true) (key : WorkerKey)
    (link : Nat) :
    (s.register key link).2.standings =
      s.standings.map (Standing.told (s.registry.find key).toList) ++
        [⟨key, s.registry.lastGeneration + 1, 0⟩] := by
  simp only [register, Registry.register, h, if_true]
  rw [show ∀ (m : Metric) (s : Server), (s.bump m).standings = s.standings from fun _ _ => rfl,
    (quiet_wakeAll _ _).sameHub.standings]
  simp only [standings, showConnected, List.map_append, List.map_cons, List.map_nil,
    Connection.standing, Connection.start]
  congr 1
  exact standings_replace key _ _

theorem unregister_of_find {s : Server} {key : WorkerKey} {g : Nat}
    (h : s.registry.find key = some g) :
    (s.unregister key).1 = true ∧ (s.unregister key).2.registry = s.registry.erase key ∧
      (s.unregister key).2.standings = s.standings.map (Standing.told [g]) := by
  simp only [unregister, Registry.unregister, h]
  exact ⟨trivial, by simp [showConnected], standings_tellStop g _⟩

theorem unregister_of_free {s : Server} {key : WorkerKey} (h : s.registry.find key = none) :
    s.unregister key = (false, s) := by
  simp [unregister, Registry.unregister, h]

theorem release_of_find {s : Server} {key : WorkerKey} {g : Nat}
    (h : s.registry.find key = some g) :
    (s.release key g).1 = true ∧ (s.release key g).2.registry = s.registry.erase key ∧
      (s.release key g).2.standings = s.standings.map (Standing.told [g]) := by
  simp only [release, Registry.release, h, if_true]
  exact ⟨trivial, by simp [showConnected], standings_tellStop g _⟩

theorem release_of_find_ne {s : Server} {key : WorkerKey} {g : Nat}
    (h : s.registry.find key ≠ some g) : s.release key g = (false, s) := by
  simp [release, Registry.release, h]

theorem registry_closeHub (s : Server) : s.closeHub.2.registry = s.registry.close.2 := by
  simp only [closeHub]
  rw [(quiet_wake _ _).sameHub.registry]
  simp [showConnected, dropWorkSender]

theorem standings_closeHub (s : Server) :
    s.closeHub.2.standings = s.standings.map (Standing.told s.registry.close.1) := by
  simp only [closeHub]
  rw [(quiet_wake _ _).sameHub.standings]
  exact standings_tellStopAll _ _

/-! ### Histories -/

/-- An operation of the hub. -/
inductive HubOp where
  | register (key : WorkerKey) (link : Nat)
  | unregister (key : WorkerKey)
  /-- A loop of the connection with this generation lets go of its key. -/
  | release (key : WorkerKey) (generation : Nat)
  | close

/-- An operation of the hub with its answer. -/
inductive HubEvent where
  | registered (key : WorkerKey) (generation : Nat)
  | refused (key : WorkerKey)
  | unregistered (key : WorkerKey) (held : Bool)
  | released (key : WorkerKey) (generation : Nat) (held : Bool)
  | closed (count : Nat)
deriving DecidableEq

/-- Carries an operation out. -/
def HubOp.run : HubOp → Server → HubEvent × Server
  | register key link, s =>
    match s.register key link with
    | (some g, s) => (.registered key g, s)
    | (none, s) => (.refused key, s)
  | unregister key, s => let (held, s) := s.unregister key; (.unregistered key held, s)
  | release key g, s => let (held, s) := s.release key g; (.released key g held, s)
  | close, s => let (count, s) := s.closeHub; (.closed count, s)

namespace HubEvent

/-- The generation that a registration gave out. -/
def generation? : HubEvent → Option Nat
  | registered _ g => some g
  | _ => none

/-- After this, the generation `g` does not hold the key `k` on account of an earlier
registration. -/
def Ends (k : WorkerKey) (g : Nat) : HubEvent → Prop
  | registered key _ => key = k
  | refused _ => False
  | unregistered key _ => key = k
  | released key generation _ => key = k ∧ generation = g
  | closed _ => True

end HubEvent

/-- The key was registered with the generation, and nothing since then has ended that. -/
def Holds (log : List HubEvent) (k : WorkerKey) (g : Nat) : Prop :=
  ∃ before after, log = before ++ .registered k g :: after ∧ ∀ e ∈ after, ¬ e.Ends k g

/-- The server `s` after the operations with the answers `log`, the oldest first. -/
inductive HubRun : List HubEvent → Server → Prop where
  /-- Nothing has been registered yet. -/
  | start {s : Server} (hr : s.registry = {}) (hc : s.connections = []) : HubRun [] s
  /-- An operation of the hub. -/
  | op {log : List HubEvent} {s : Server} (h : HubRun log s) (o : HubOp) :
      HubRun (log ++ [(o.run s).1]) (o.run s).2
  /-- Anything else that a server does. -/
  | between {log : List HubEvent} {s s' : Server} (h : HubRun log s) (hs : SameHub s s') :
      HubRun log s'

theorem holds_concat {log : List HubEvent} {e : HubEvent} {k : WorkerKey} {g : Nat} :
    Holds (log ++ [e]) k g ↔ e = .registered k g ∨ Holds log k g ∧ ¬ e.Ends k g := by
  constructor
  · rintro ⟨before, after, heq, hafter⟩
    rcases List.eq_nil_or_concat after with rfl | ⟨rest, last, rfl⟩
    · obtain ⟨-, h⟩ := List.append_inj' heq rfl
      exact Or.inl (List.singleton_inj.mp h)
    · rw [List.concat_eq_append, ← List.cons_append, ← List.append_assoc] at heq
      obtain ⟨hlog, hlast⟩ := List.append_inj' heq rfl
      obtain rfl := List.singleton_inj.mp hlast
      exact Or.inr ⟨⟨before, rest, hlog, fun e he => hafter e (by simp [he])⟩,
        hafter e (by simp)⟩
  · rintro (rfl | ⟨⟨before, after, rfl, hafter⟩, he⟩)
    · exact ⟨log, [], rfl, by simp⟩
    · refine ⟨before, after ++ [e], by simp, fun x hx => ?_⟩
      rcases List.mem_append.mp hx with hx | hx
      · exact hafter x hx
      · rwa [List.mem_singleton.mp hx]

/-! ### What the history says

`Recorded` is what holds after any history; it is carried along one answer at a
time.  `Recorded.concat` says what an answer owes to it, and the lemmas after it
pay for each operation.
-/

/-- The server `s` stands as the history `log` says. -/
structure Recorded (log : List HubEvent) (s : Server) : Prop where
  tended : Tended s.registry s.standings
  /-- The generations were given out one after another. -/
  given : log.filterMap HubEvent.generation? = List.range' 1 s.registry.lastGeneration
  holder : ∀ k g, s.registry.find k = some g ↔ Holds log k g
  /-- Every registration is still on record. -/
  owner : ∀ k g, .registered k g ∈ log → ∃ x ∈ s.standings, x.key = k ∧ x.generation = g
  shut : ∀ n, .closed n ∈ log → s.registry.isOpen = false
  /-- After a close nothing is registered. -/
  late : ∀ before after n, log = before ++ .closed n :: after → ∀ e ∈ after, e.generation? = none

namespace Recorded

variable {log : List HubEvent} {s s' : Server} {e : HubEvent}

theorem concat (ok : Recorded log s) (tended : Tended s'.registry s'.standings)
    (given : s'.registry.lastGeneration = s.registry.lastGeneration + e.generation?.toList.length)
    (next : ∀ g, e.generation? = some g → g = s.registry.lastGeneration + 1)
    (holder : ∀ k g, s'.registry.find k = some g ↔
      e = .registered k g ∨ s.registry.find k = some g ∧ ¬ e.Ends k g)
    (stay : ∀ x ∈ s.standings, ∃ y ∈ s'.standings, y.key = x.key ∧ y.generation = x.generation)
    (come : ∀ k g, e = .registered k g → ∃ y ∈ s'.standings, y.key = k ∧ y.generation = g)
    (shut : s.registry.isOpen = false ∨ (∃ n, e = .closed n) → s'.registry.isOpen = false)
    (late : s.registry.isOpen = false → e.generation? = none) :
    Recorded (log ++ [e]) s' where
  tended := tended
  given := by
    rw [List.filterMap_append, ok.given, given]
    cases hg : e.generation? with
    | none => simp [hg]
    | some g => simp [hg, next g hg, List.range'_concat, Nat.add_comm]
  holder k g := by rw [holder, ok.holder, holds_concat]
  owner k g hmem := by
    rcases List.mem_append.mp hmem with h | h
    · obtain ⟨x, hx, rfl, rfl⟩ := ok.owner k g h
      exact stay x hx
    · exact come k g (List.mem_singleton.mp h).symm
  shut n hmem := by
    rcases List.mem_append.mp hmem with h | h
    · exact shut (Or.inl (ok.shut n h))
    · exact shut (Or.inr ⟨n, (List.mem_singleton.mp h).symm⟩)
  late before after n heq x hx := by
    rcases List.eq_nil_or_concat after with rfl | ⟨rest, last, rfl⟩
    · simp at hx
    · rw [List.concat_eq_append, ← List.cons_append, ← List.append_assoc] at heq
      obtain ⟨rfl, hlast⟩ := List.append_inj' heq rfl
      obtain rfl := List.singleton_inj.mp hlast
      rw [List.concat_eq_append] at hx
      rcases List.mem_append.mp hx with h | h
      · exact ok.late before rest n rfl x h
      · rw [List.mem_singleton.mp h]
        exact late (ok.shut n (by simp))

theorem start (hr : s.registry = {}) (hc : s.connections = []) : Recorded [] s where
  tended := by
    rw [hr, standings, hc]
    exact Tended.empty
  given := by simp [hr]
  holder k g := by simp [hr, Registry.find, Holds]
  owner k g h := by simp at h
  shut n h := by simp at h
  late before after n h := by simp at h

theorem between (ok : Recorded log s) (hs : SameHub s s') : Recorded log s' where
  tended := by
    rw [hs.registry, hs.standings]
    exact ok.tended
  given := by rw [hs.registry]; exact ok.given
  holder k g := by rw [hs.registry]; exact ok.holder k g
  owner k g h := by rw [hs.standings]; exact ok.owner k g h
  shut n h := by rw [hs.registry]; exact ok.shut n h
  late := ok.late

/-- An operation that finds nothing to do. -/
theorem idle (ok : Recorded log s) (hs : SameHub s s') (hg : e.generation? = none)
    (hclosed : ∀ n, e ≠ .closed n) (hends : ∀ k g, s.registry.find k = some g → ¬ e.Ends k g) :
    Recorded (log ++ [e]) s' := by
  have hreg : ∀ k g, e ≠ .registered k g := by
    rintro k g rfl
    simp [HubEvent.generation?] at hg
  refine ok.concat ?_ ?_ ?_ ?_ ?_ ?_ ?_ (fun _ => hg)
  · rw [hs.registry, hs.standings]
    exact ok.tended
  · simp [hg, hs.registry]
  · simp [hg]
  · intro k g
    rw [hs.registry]
    exact ⟨fun h => Or.inr ⟨h, hends k g h⟩, fun h => h.elim (fun h => absurd h (hreg k g)) (·.1)⟩
  · intro x hx
    exact ⟨x, by rwa [hs.standings], rfl, rfl⟩
  · exact fun k g h => absurd h (hreg k g)
  · rintro (h | ⟨n, h⟩)
    · rwa [hs.registry]
    · exact absurd h (hclosed n)

/-- An operation that takes a key from its holder. -/
theorem evicted (ok : Recorded log s) {key : WorkerKey} {g₀ : Nat}
    (hfind : s.registry.find key = some g₀) (hr : s'.registry = s.registry.erase key)
    (hst : s'.standings = s.standings.map (Standing.told [g₀])) (hg : e.generation? = none)
    (hclosed : ∀ n, e ≠ .closed n)
    (hends : ∀ k g, s.registry.find k = some g → (e.Ends k g ↔ key = k)) :
    Recorded (log ++ [e]) s' := by
  have hreg : ∀ k g, e ≠ .registered k g := by
    rintro k g rfl
    simp [HubEvent.generation?] at hg
  refine ok.concat ?_ ?_ ?_ ?_ ?_ ?_ ?_ (fun _ => hg)
  · rw [hr, hst]
    have h := ok.tended.evict key
    rwa [hfind] at h
  · simp [hg, hr, Registry.erase]
  · simp [hg]
  · intro k g
    rw [hr, Registry.find_erase]
    by_cases hk : key = k
    · have hno : ¬ (s.registry.find k = some g ∧ ¬ e.Ends k g) := fun h =>
        h.2 ((hends k g h.1).mpr hk)
      simp [hk, hno, hreg k g]
    · have hyes : s.registry.find k = some g → ¬ e.Ends k g := fun h hc => hk ((hends k g h).mp hc)
      rw [if_neg hk]
      exact ⟨fun h => Or.inr ⟨h, hyes h⟩, fun h => h.elim (fun h => absurd h (hreg k g)) (·.1)⟩
  · intro x hx
    exact ⟨x.told [g₀], by rw [hst]; exact List.mem_map_of_mem hx, rfl, rfl⟩
  · exact fun k g h => absurd h (hreg k g)
  · rintro (h | ⟨n, h⟩)
    · rwa [hr]
    · exact absurd h (hclosed n)

theorem registered (ok : Recorded log s) (hopen : s.registry.isOpen = true) (key : WorkerKey)
    (link : Nat) :
    Recorded (log ++ [.registered key (s.registry.lastGeneration + 1)])
      (s.register key link).2 := by
  have hr := registry_register hopen key link
  have hst := standings_register hopen key link
  refine ok.concat ?_ ?_ ?_ ?_ ?_ ?_ ?_ ?_
  · -- The holder so far is evicted before the new connection is admitted.
    have hfree : (s.registry.erase key).find key = none := by simp [Registry.find_erase]
    have h := (ok.tended.evict key).enrol hopen hfree
    have herase : ((s.registry.erase key).register key).2 = (s.registry.register key).2 := by
      simp [Registry.register, Registry.erase, hopen]
    rw [hr, hst, ← herase]
    exact h
  · simp [hr, Registry.register, hopen, HubEvent.generation?]
  · simp [HubEvent.generation?]
  · intro k g
    rw [hr, Registry.find_register hopen]
    by_cases hk : key = k <;> simp [hk, HubEvent.Ends, eq_comm]
  · intro x hx
    refine ⟨x.told (s.registry.find key).toList, ?_, rfl, rfl⟩
    rw [hst]
    exact List.mem_append_left _ (List.mem_map_of_mem hx)
  · rintro k g heq
    obtain ⟨rfl, rfl⟩ := HubEvent.registered.inj heq
    exact ⟨_, by rw [hst]; exact List.mem_append_right _ (List.mem_singleton_self _), rfl, rfl⟩
  · rintro (h | ⟨n, h⟩)
    · simp [h] at hopen
    · simp at h
  · intro h
    simp [h] at hopen

theorem closed (ok : Recorded log s) :
    Recorded (log ++ [.closed s.closeHub.1]) s.closeHub.2 := by
  have hr := registry_closeHub s
  have hst := standings_closeHub s
  refine ok.concat ?_ ?_ ?_ ?_ ?_ ?_ ?_ ?_
  · rw [hr, hst]
    exact ok.tended.close
  · simp [hr, Registry.close, HubEvent.generation?]
  · simp [HubEvent.generation?]
  · intro k g
    simp [hr, Registry.close, Registry.find, HubEvent.Ends]
  · intro x hx
    exact ⟨x.told s.registry.close.1, by rw [hst]; exact List.mem_map_of_mem hx, rfl, rfl⟩
  · simp
  · intro _
    rw [hr]
    rfl
  · simp [HubEvent.generation?]

end Recorded

theorem run_register {s : Server} (hopen : s.registry.isOpen = true) (key : WorkerKey)
    (link : Nat) : (HubOp.register key link).run s =
      (.registered key (s.registry.lastGeneration + 1), (s.register key link).2) := by
  simp only [HubOp.run]
  rw [← Prod.eta (s.register key link), register_fst hopen]

/-- One operation more. -/
theorem Recorded.op {log : List HubEvent} {s : Server} (ok : Recorded log s) (o : HubOp) :
    Recorded (log ++ [(o.run s).1]) (o.run s).2 := by
  cases o with
  | register key link =>
    cases hopen : s.registry.isOpen with
    | false =>
      simp only [HubOp.run, register_of_closed hopen]
      exact ok.idle (quiet_dropLink link s).sameHub rfl (by simp) (by simp [HubEvent.Ends])
    | true =>
      rw [run_register hopen]
      exact ok.registered hopen key link
  | unregister key =>
    cases hfind : s.registry.find key with
    | none =>
      simp only [HubOp.run, unregister_of_free hfind]
      refine ok.idle (.refl s) rfl (by simp) fun k g h hc => ?_
      rw [show key = k from hc, h] at hfind
      simp at hfind
    | some g =>
      obtain ⟨-, hr, hst⟩ := unregister_of_find hfind
      exact ok.evicted hfind hr hst rfl (by simp [HubOp.run]) fun k g' _ => Iff.rfl
  | release key g =>
    by_cases hfind : s.registry.find key = some g
    · obtain ⟨-, hr, hst⟩ := release_of_find hfind
      refine ok.evicted hfind hr hst rfl (by simp [HubOp.run]) fun k g' h => ?_
      refine ⟨fun hc => hc.1, fun hk => ⟨hk, ?_⟩⟩
      rw [← hk, hfind] at h
      exact Option.some.inj h
    · simp only [HubOp.run, release_of_find_ne hfind]
      refine ok.idle (.refl s) rfl (by simp) fun k g' h hc => ?_
      obtain ⟨rfl, rfl⟩ := hc
      exact hfind h
  | close => exact ok.closed

theorem HubRun.recorded {log : List HubEvent} {s : Server} (h : HubRun log s) :
    Recorded log s := by
  induction h with
  | start hr hc => exact .start hr hc
  | op _ o ih => exact ih.op o
  | between _ hs ih => exact ih.between hs

theorem generation_of_connection? {s : Server} {g : Nat} {c : Connection}
    (h : s.connection? g = some c) : c.generation = g := by
  simpa using List.find?_some h

/-- A standing on record is that of the connection with its number. -/
theorem Tended.connection?_eq {s : Server} (ok : Tended s.registry s.standings) {x : Standing}
    (hx : x ∈ s.standings) : ∃ c, s.connection? x.generation = some c ∧ c.standing = x := by
  obtain ⟨c, hc, rfl⟩ := List.mem_map.mp hx
  have hsome : (s.connection? c.standing.generation).isSome = true := by
    rw [connection?, List.find?_isSome]
    exact ⟨c, hc, beq_self_eq_true _⟩
  obtain ⟨d, hd⟩ := Option.isSome_iff_exists.mp hsome
  refine ⟨d, hd, ok.eq_of_generation ?_ hx ?_⟩
  · exact List.mem_map_of_mem (List.mem_of_find?_eq_some hd)
  · exact generation_of_connection? hd

/--
**The registry holds what its history says.**  After any operations, in any order
and with any work of the loops between them:

  * a key is live with a generation exactly if that is the generation of its last
    registration and nothing has taken it away since;
  * a release for any other generation is refused and changes nothing, so a
    connection that goes never takes the key from the one that replaced it;
  * live generations differ, and every registration gets a greater one than all
    before it;
  * a connection that was ever registered is live and has not been told to stop, or
    is not live and has been told once;
  * after a close nothing is live, nothing was registered any more, and every
    operation that comes late is refused.
-/
theorem registry_follows_history {log : List HubEvent} {s : Server} (h : HubRun log s) :
    (∀ k g, s.registry.find k = some g ↔ Holds log k g) ∧
    (∀ k g, s.registry.find k ≠ some g → s.release k g = (false, s)) ∧
    ((s.registry.live.map (·.2)).Nodup ∧
      (log.filterMap HubEvent.generation?).Pairwise (· < ·)) ∧
    (∀ k g, .registered k g ∈ log → ∃ c, s.connection? g = some c ∧ c.key = k ∧
      (s.registry.find k = some g ∧ c.stopSignals = 0 ∨
        (∀ k', s.registry.find k' ≠ some g) ∧ c.stopSignals = 1)) ∧
    (∀ before after n, log = before ++ .closed n :: after →
      s.registry.live = [] ∧ (∀ e ∈ after, e.generation? = none) ∧
      (∀ k link, s.register k link = (none, s.dropLink link)) ∧
      (∀ k, s.unregister k = (false, s)) ∧ ∀ k g, s.release k g = (false, s)) := by
  have ok := h.recorded
  refine ⟨ok.holder, fun k g => release_of_find_ne, ⟨ok.tended.live_generations_nodup, ?_⟩, ?_, ?_⟩
  · rw [ok.given]
    exact List.pairwise_lt_range'
  · intro k g hmem
    obtain ⟨x, hx, rfl, rfl⟩ := ok.owner k g hmem
    obtain ⟨c, hc, rfl⟩ := ok.tended.connection?_eq hx
    refine ⟨c, hc, rfl, ?_⟩
    have hsig : c.stopSignals = if s.registry.find c.key = some c.generation then 0 else 1 :=
      ok.tended.signals _ hx
    by_cases hlive : s.registry.find c.key = some c.generation
    · rw [if_pos hlive] at hsig
      exact Or.inl ⟨hlive, hsig⟩
    · rw [if_neg hlive] at hsig
      refine Or.inr ⟨fun k' hk' => hlive ?_, hsig⟩
      rwa [← ok.tended.key_of_find hx hk'] at hk'
  · rintro before after n heq
    have hclosed : s.registry.isOpen = false := ok.shut n (by simp [heq])
    have hlive : s.registry.live = [] := ok.tended.closed hclosed
    have hfind : ∀ k, s.registry.find k = none := fun k => by simp [Registry.find, hlive]
    refine ⟨hlive, ok.late before after n heq, fun k link => register_of_closed hclosed k link,
      fun k => unregister_of_free (hfind k), fun k g => release_of_find_ne ?_⟩
    simp [hfind k]

/-- A key is registered twice, the first connection lets go of it, and the second one still
holds it until the hub is closed. -/
theorem registry_follows_history_reused :
    ∃ s, HubRun [.registered ⟨"a"⟩ 1, .registered ⟨"a"⟩ 2, .released ⟨"a"⟩ 1 false] s ∧
      s.registry.find ⟨"a"⟩ = some 2 ∧ s.release ⟨"a"⟩ 1 = (false, s) := by
  have h₀ : HubRun [] ({ clock := ⟨0, 0⟩, queue := .ofCapacity 1 } : Server) := .start rfl rfl
  have h := ((h₀.op (.register ⟨"a"⟩ 0)).op (.register ⟨"a"⟩ 1)).op (.release ⟨"a"⟩ 1)
  have hfind := ((registry_follows_history h).1 ⟨"a"⟩ 2).mpr
    ⟨[.registered ⟨"a"⟩ 1], [.released ⟨"a"⟩ 1 false], rfl, by simp [HubEvent.Ends]⟩
  exact ⟨_, h, hfind, (registry_follows_history h).2.1 _ _ (by simp [hfind])⟩

end Foreman.Server
