/-
Who holds a sending end of the work queue.

A queue is closed once nobody holds a sending end of it, so whether it closes too early,
or not at all, is a question of who was given one and when they let go of it.  The hub has
one until it is closed; each read loop is given a copy when its connection is registered
and has it until it stops.  `SendersHeld` says that this is all of them: no copy is
forgotten anywhere, and none goes missing.

The sending ends show in the outline, and so does where the read loops stand.  What an
action does to an outline is told by `outline_act`, and only three things that it does
matter here: a connection joins, a read loop stops, and the hub is closed.
-/
import Foreman.Proofs.Server.OutlineAct

namespace Foreman.Server

/-- The hub has a sending end of the work queue as long as it accepts registrations. -/
def Registry.senders (r : Registry) : List Sender := if r.isOpen then [.hub] else []

/-- Besides the hub exactly the read loops that have not stopped hold a sending end of the work
queue, one each. -/
def SendersHeld (s : Server) : Prop :=
  s.workSenders = s.registry.senders ++
    (s.connections.filter (·.reader ≠ .stopped)).map fun c => Sender.reader c.generation

/-! ### Sending ends in outline -/

namespace Outline

/-- The sending ends of the read loops that have not stopped. -/
def readers (o : Outline) : List Sender :=
  (o.members.filter (·.phase ≠ .stopped)).map fun x => Sender.reader x.generation

/-- Besides those that hold `others` exactly the read loops that have not stopped hold a sending
end. -/
def Held (others : List Sender) (o : Outline) : Prop := o.senders = others ++ o.readers

section

variable {o : Outline} {others : List Sender}

/-- A read loop that does not stop keeps its sending end. -/
theorem readers_moved {g : Nat} {f : Phase → Phase}
    (h : ∀ x ∈ o.members, x.generation = g → (f x.phase = .stopped ↔ x.phase = .stopped)) :
    (o.moved g f).readers = o.readers := by
  unfold readers moved
  rw [List.filter_map, List.map_map]
  have hfilter : o.members.filter ((fun x : Member => decide (x.phase ≠ .stopped)) ∘
      fun x => if x.generation = g then { x with phase := f x.phase } else x) =
        o.members.filter (·.phase ≠ .stopped) := by
    refine List.filter_congr fun x hx => ?_
    by_cases hg : x.generation = g
    · simp [hg, h x hx hg]
    · simp [hg]
  rw [hfilter]
  refine List.map_congr_left fun x _ => ?_
  by_cases hg : x.generation = g <;> simp [hg]

theorem readers_granted (next : Option Nat) (o : Outline) :
    (o.granted next).readers = o.readers := by
  cases next with
  | none => rfl
  | some g =>
    refine readers_moved fun x _ _ => ?_
    cases x.phase <;> simp [Phase.grant]

theorem senders_granted (next : Option Nat) (o : Outline) :
    (o.granted next).senders = o.senders := by
  cases next <;> rfl

/-- Whoever gets a slot had not stopped. -/
theorem stopped_of_granted {next : Option Nat} {y : Member} (hy : y ∈ (o.granted next).members) :
    ∃ x ∈ o.members, x.generation = y.generation ∧ (y.phase = .stopped ↔ x.phase = .stopped) := by
  cases next with
  | none => exact ⟨y, hy, rfl, .rfl⟩
  | some g =>
    obtain ⟨x, hx, rfl⟩ := List.mem_map.mp hy
    refine ⟨x, hx, ?_⟩
    split
    · refine ⟨rfl, ?_⟩
      cases x.phase <;> simp [Phase.grant]
    · exact ⟨rfl, .rfl⟩

theorem nodup_readers (distinct : (o.members.map (·.generation)).Nodup) : o.readers.Nodup := by
  unfold readers
  rw [List.nodup_map_iff_inj_on ((List.Nodup.of_map _ distinct).filter _)]
  intro x hx y hy hxy
  exact List.inj_on_of_nodup_map distinct (List.mem_of_mem_filter hx) (List.mem_of_mem_filter hy)
    (Sender.reader.inj hxy)

/-- A read loop that stops lets go of its sending end. -/
theorem readers_leaves (distinct : (o.members.map (·.generation)).Nodup) (x : Member) :
    (o.leaves x).readers = o.readers.erase (.reader x.generation) := by
  rw [(nodup_readers distinct).erase_eq_filter]
  unfold leaves goes moved readers
  rw [List.filter_map, List.filter_map, List.map_map, List.filter_filter]
  have hfilter : o.members.filter ((fun y : Member => decide (y.phase ≠ .stopped)) ∘
      fun y => if y.generation = x.generation then { y with phase := .stopped } else y) =
        o.members.filter fun y => ((· != Sender.reader x.generation) ∘
          fun y : Member => Sender.reader y.generation) y && decide (y.phase ≠ .stopped) := by
    refine List.filter_congr fun y _ => ?_
    by_cases hg : y.generation = x.generation <;> simp [hg]
  rw [hfilter]
  refine List.map_congr_left fun y _ => ?_
  by_cases hg : y.generation = x.generation <;> simp [hg]

namespace Held

theorem strides (held : o.Held others) (nobody : ∀ g, Sender.reader g ∉ others)
    (distinct : (o.members.map (·.generation)).Nodup) {x : Member} (member : x ∈ o.members)
    {o' : Outline} (h : Strides x o o') : o'.Held others := by
  cases h with
  | goes l next p running going _ h =>
    subst h
    have hreaders : (({ o with line := l }.granted next).goes x p).readers = o.readers := by
      refine (readers_moved fun y hy hg => ?_).trans (readers_granted next _)
      obtain ⟨z, hz, hgen, hstopped⟩ := stopped_of_granted hy
      obtain rfl := List.inj_on_of_nodup_map distinct hz member (hgen.trans hg)
      exact ⟨fun hp => absurd hp going, fun hy => absurd (hstopped.mp hy) running⟩
    unfold Held
    rw [hreaders]
    exact (senders_granted next _).trans held
  | leaves _ h =>
    subst h
    unfold Held
    rw [readers_leaves distinct, ← List.erase_append_right _ (nobody x.generation)]
    exact congrArg (List.erase · (.reader x.generation)) held

theorem readsOf (held : o.Held others) (nobody : ∀ g, Sender.reader g ∉ others)
    (distinct : (o.members.map (·.generation)).Nodup) (g : Nat) (stop : Member → Bool)
    (view : Nat → Option View) : (o.readsOf g stop view).Held others := by
  unfold Outline.readsOf
  cases hstep : (o.member? g).bind fun x => o.reads x (stop x) (view x.link) with
  | none => exact held
  | some o' =>
    obtain ⟨x, hx, hreads⟩ := Option.bind_eq_some_iff.mp hstep
    exact held.strides nobody distinct (List.mem_of_find?_eq_some hx) (strides_of_reads hreads)

theorem joined (held : o.Held others) (key : WorkerKey) (g link : Nat) :
    (o.joined key g link).Held others := by
  unfold Held Outline.joined readers
  rw [List.filter_append, List.map_append, ← List.append_assoc]
  exact congrArg (· ++ [Sender.reader g]) held

theorem registers (held : o.Held others) (r : Registry) (key : WorkerKey) (link : Nat) :
    (o.registers r key link).Held others := by
  unfold Outline.registers
  split
  · exact held.joined key _ link
  · exact held

theorem returns (held : o.Held others) : o.returns.Held others := by
  unfold Outline.returns
  split
  · exact held
  · unfold Held
    rw [readers_granted, senders_granted]
    exact held

theorem takes (held : o.Held others) {key : WorkerKey} {o' : Outline}
    (h : o.takes = some (key, o')) : o'.Held others := by
  unfold Outline.takes at h
  split at h
  · cases h
  · obtain ⟨-, rfl⟩ := Prod.mk.inj (Option.some.inj h)
    exact returns held

theorem aggregates (held : o.Held others) : o.aggregates.Held others := by
  unfold Outline.aggregates
  split
  · split
    · rename_i key t htakes
      have htaken : t.Held others := held.takes htakes
      exact htaken
    · split <;> exact held
  · exact held

theorem withdraws (held : o.Held others) {link : Nat} {u : WorkerKey × Outline}
    (h : o.withdraws link = some u) : u.2.Held others := by
  obtain ⟨v, -, rfl⟩ := Option.map_eq_some_iff.mp h
  exact held

theorem upgraded (held : o.Held others) (r : Registry) (link : Nat) :
    (o.upgraded r link).Held others := by
  unfold Outline.upgraded
  cases hw : o.withdraws link with
  | none => exact held
  | some u => exact (held.withdraws hw).registers r u.1 link

/-- Only a close of the hub changes who else holds a sending end. -/
theorem acts (held : o.Held others) (nobody : ∀ g, Sender.reader g ∉ others)
    (distinct : (o.members.map (·.generation)).Nodup) (r : Registry) (view : Nat → Option View)
    {a : Action} (ha : a ≠ .close) : (o.acts r view a).Held others := by
  cases a with
  | step t =>
    cases t with
    | reader g => exact held.readsOf nobody distinct g _ view
    | aggregator => exact held.aggregates
    | upgrade link => exact held.upgraded r link
    | _ => exact held
  | readEarly g => exact held.readsOf nobody distinct g _ view
  | register key link => exact held.registers r key link
  | close => exact absurd rfl ha
  | failUpgrade link =>
    simp only [Outline.acts]
    cases hw : o.withdraws link with
    | none => exact held
    | some u => exact held.withdraws hw
  | take =>
    simp only [Outline.acts]
    cases htakes : o.takes with
    | none => exact held
    | some p => exact held.takes htakes
  | _ => exact held

end Held

end

end Outline

/-! ### Sending ends of a server -/

section

variable {s : Server}

theorem sendersHeld_iff_outline : s.SendersHeld ↔ s.outline.Held s.registry.senders := by
  have hreaders : s.outline.readers =
      (s.connections.filter (·.reader ≠ .stopped)).map fun c => Sender.reader c.generation := by
    unfold Outline.readers outline
    rw [List.filter_map, List.map_map]
    have hfilter : s.connections.filter ((fun x : Member => decide (x.phase ≠ .stopped)) ∘
        Connection.member) = s.connections.filter (·.reader ≠ .stopped) := by
      refine List.filter_congr fun c _ => ?_
      cases hr : c.reader <;> simp [Connection.member, hr, Reader.phase]
    rw [hfilter]
    rfl
  rw [Outline.Held, hreaders]
  rfl

/-- No other operation of the hub changes whether it accepts registrations. -/
theorem isOpen_run {o : HubOp} (ho : o ≠ .close) (s : Server) :
    (o.run s).2.registry.isOpen = s.registry.isOpen := by
  cases o with
  | register key link =>
    cases hopen : s.registry.isOpen with
    | false =>
      simp only [HubOp.run, register_of_closed hopen]
      exact (congrArg Registry.isOpen (quiet_dropLink link s).sameHub.registry).trans hopen
    | true =>
      rw [run_register hopen, registry_register hopen]
      simp [Registry.register, hopen]
  | unregister key =>
    cases hfind : s.registry.find key with
    | none => simp only [HubOp.run, unregister_of_free hfind]
    | some g => exact (congrArg Registry.isOpen (unregister_of_find hfind).2.1).trans rfl
  | release key g =>
    by_cases hfind : s.registry.find key = some g
    · exact (congrArg Registry.isOpen (release_of_find hfind).2.1).trans rfl
    · simp only [HubOp.run, release_of_find_ne hfind]
  | close => exact absurd rfl ho

theorem hubOp?_ne_close {a : Action} (ha : a ≠ .close) (s : Server) :
    a.hubOp? s ≠ some .close := by
  have hreader (g : Nat) : s.readerOp? g ≠ some .close := by
    unfold readerOp? Connection.readerOp?
    cases s.connection? g <;> simp
  have hwriter (g : Nat) : s.writerOp? g ≠ some .close := by
    unfold writerOp? Connection.writerOp?
    cases hc : s.connection? g with
    | none => simp
    | some c => cases hl : s.link? c.link <;> simp [hl]
  cases a with
  | step t =>
    cases t with
    | reader g => exact hreader g
    | writer g => exact hwriter g
    | _ => simp [Action.hubOp?]
  | readEarly g => exact hreader g
  | writeEarly g ping => exact hwriter g
  | close => exact absurd rfl ha
  | _ => simp [Action.hubOp?]

/-- Registrations are accepted until the hub is closed. -/
theorem isOpen_act {a : Action} (ha : a ≠ .close) (s : Server) :
    (s.act a).registry.isOpen = s.registry.isOpen := by
  rw [(sameHub_act a s).registry]
  have hop := hubOp?_ne_close ha s
  cases ho : a.hubOp? s with
  | none => rfl
  | some o =>
    rw [ho] at hop
    exact isOpen_run (fun h => hop (congrArg some h)) s

theorem sendersHeld_start {s : Server} (hr : s.registry = {}) (hc : s.connections = [])
    (hs : s.workSenders = [.hub]) : SendersHeld s := by
  rw [SendersHeld, hr, hc, hs]
  rfl

/-- **Every action keeps the sending ends in order.** -/
theorem SendersHeld.act (held : SendersHeld s) (hosted : Hosted s) (a : Action) :
    SendersHeld (s.act a) := by
  have hnobody (r : Registry) (g : Nat) : Sender.reader g ∉ r.senders := by
    unfold Registry.senders
    split <;> simp
  rw [sendersHeld_iff_outline] at held ⊢
  by_cases ha : a = .close
  · subst ha
    have hshut : (s.act .close).registry.senders = [] :=
      congrArg Registry.senders (registry_closeHub s)
    have hkept : Sender.hub ∉ s.outline.readers := by simp [Outline.readers]
    rw [hshut, outline_act hosted, Outline.acts, Outline.Held, held, Registry.senders]
    split
    · rfl
    · exact List.erase_of_not_mem hkept
  · have hsame : (s.act a).registry.senders = s.registry.senders := by
      rw [Registry.senders, isOpen_act ha, Registry.senders]
    have hdistinct : (s.outline.members.map (·.generation)).Nodup := by
      have hn := hosted.nodup_generations
      rwa [outline, List.map_map]
    rw [hsame, outline_act hosted]
    exact held.acts (hnobody _) hdistinct _ _ ha

theorem SendersHeld.after (held : SendersHeld s) (hosted : Hosted s) (actions : List Action) :
    SendersHeld (s.after actions) := by
  induction actions generalizing s with
  | nil => exact held
  | cons a rest ih => exact ih (held.act hosted a) (hosted_act a hosted)

/-- **The work queue is closed exactly when the hub is and every read loop has stopped.** -/
theorem SendersHeld.workEnded_iff (held : SendersHeld s) :
    s.workEnded = true ↔
      s.registry.isOpen = false ∧ ∀ c ∈ s.connections, c.reader = .stopped := by
  rw [workEnded, held, List.isEmpty_iff, List.append_eq_nil_iff, List.map_eq_nil_iff,
    List.filter_eq_nil_iff, Registry.senders]
  simp

end

end Foreman.Server
