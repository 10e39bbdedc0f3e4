/-
Since when a read loop waits.

A read loop waits for a frame, or it is dealing with one: it has an event for the work queue,
waits for a slot, or leaves.  Where it stands shows in the outline, and so this file is about
outlines first.  Nobody but a read loop itself makes it wait, and whenever it begins to, be it
after a frame that it could not use or after an event that it had to keep for long, it waits
since now.  `waiting_act` says so of every action.

Time is what the clock actions make of it.  In a run that is `timely` it does not go back, and
it passes no timer: up to the instant for which a timer is set it comes no further than to that
instant, and from there it goes on only when the loop that has set the timer has done all that
it can.  That a read loop gives up when its timer is due is what keeps it from waiting for a
frame for longer than the timeout.
-/
import Foreman.Proofs.Server.Drain
import Foreman.Proofs.Server.OutlineAct

namespace Foreman.Server

/-! ### Clocks -/

/-- What an action sets the clocks to. -/
def Action.sets : Action → Option Clock
  | .clock c => some c
  | _ => none

theorem Action.eq_clock {a : Action} {c : Clock} (h : a.sets = some c) : a = .clock c := by
  cases a <;> simp_all [Action.sets]

/-- Time does not go back, and it passes no timer that is set: the timer is not due before the
clocks are there, or it is due and its loop has nothing to do any more. -/
def reaches (c : Clock) (s : Server) : Bool :=
  decide (c.monoMs = s.clock.monoMs) ||
    decide (s.clock.monoMs < c.monoMs) && (s.connections.flatMap s.timers).all fun t =>
      decide (c.monoMs ≤ t.1) || decide (t.1 ≤ s.clock.monoMs) && (s.step t.2).isNone

/-- No action in a run turns time back or makes it jump over a timer. -/
def timely : List Action → Server → Bool
  | [], _ => true
  | a :: rest, s => a.sets.all (s.reaches ·) && timely rest (s.act a)

theorem reaches_iff {c : Clock} {s : Server} :
    s.reaches c = true ↔ c.monoMs = s.clock.monoMs ∨ s.clock.monoMs < c.monoMs ∧
      ∀ d ∈ s.connections, ∀ t ∈ s.timers d,
        c.monoMs ≤ t.1 ∨ t.1 ≤ s.clock.monoMs ∧ s.step t.2 = none := by
  simp only [reaches, Bool.or_eq_true, Bool.and_eq_true, decide_eq_true_eq, List.all_eq_true,
    List.mem_flatMap, Option.isNone_iff_eq_none]
  refine or_congr_right (and_congr_right fun _ => ?_)
  exact ⟨fun h d hd t ht => h t ⟨d, hd, ht⟩, fun h t ⟨d, hd, ht⟩ => h d hd t ht⟩

/-! ### Who waits in an outline -/

namespace Outline

/-- The read loop of a connection has waited for a frame since an instant. -/
def Waits (g since : Nat) (o : Outline) : Prop :=
  ∃ x ∈ o.members, x.generation = g ∧ x.phase = .waiting since

section

variable {g since : Nat} {o : Outline}

/-- The line has no part in who waits for a frame. -/
theorem waits_line {l : Line} :
    ({ o with line := l } : Outline).Waits g since ↔ o.Waits g since := Iff.rfl

theorem waits_moved {k : Nat} {f : Phase → Phase} (h : (o.moved k f).Waits g since) :
    ∃ x ∈ o.members, x.generation = g ∧
      (if g = k then f x.phase else x.phase) = .waiting since := by
  obtain ⟨y, hy, hg, hphase⟩ := h
  obtain ⟨x, hx, rfl⟩ := List.mem_map.mp hy
  by_cases hk : x.generation = k
  · rw [if_pos hk] at hg hphase
    obtain rfl : x.generation = g := hg
    exact ⟨x, hx, rfl, by rwa [if_pos hk]⟩
  · rw [if_neg hk] at hg hphase
    exact ⟨x, hx, hg, by rwa [← hg, if_neg hk]⟩

/-- Nobody waits for a frame because there is a slot. -/
theorem waits_granted {next : Option Nat} (h : (o.granted next).Waits g since) :
    o.Waits g since := by
  cases next with
  | none => exact h
  | some k =>
    obtain ⟨x, hx, hg, hphase⟩ := waits_moved h
    refine ⟨x, hx, hg, ?_⟩
    split at hphase
    · cases hp : x.phase <;> simp_all [Phase.grant]
    · exact hphase

theorem waits_returns (h : o.returns.Waits g since) : o.Waits g since := by
  unfold returns at h
  split at h
  · exact h
  · exact waits_line.mp (waits_granted h)

/-- A loop that goes on to a phase waits only if that is what it goes on to. -/
theorem waits_goes {x : Member} {p : Phase} (h : (o.goes x p).Waits g since) :
    g = x.generation ∧ p = .waiting since ∨ g ≠ x.generation ∧ o.Waits g since := by
  obtain ⟨y, hy, hg, hphase⟩ := waits_moved h
  split at hphase <;> rename_i hx
  · exact .inl ⟨hx, hphase⟩
  · exact .inr ⟨hx, y, hy, hg, hphase⟩

/-- After a step a read loop waits since now, or not at all; the others wait as they did. -/
theorem waits_reads {x : Member} {stop : Bool} {view : Option View} {o' : Outline}
    (h : o.reads x stop view = some o') (waits : o'.Waits g since) :
    since = o.clock.monoMs ∨ g ≠ x.generation ∧ o.Waits g since := by
  cases strides_of_reads h with
  | goes l next p _ _ now h =>
    subst h
    rcases waits_goes waits with ⟨-, hp⟩ | ⟨hg, hother⟩
    · exact .inl (now since hp)
    · exact .inr ⟨hg, waits_line.mp (waits_granted hother)⟩
  | leaves _ h =>
    subst h
    rcases waits_goes waits with ⟨-, hp⟩ | ⟨hg, hother⟩
    · cases hp
    · exact .inr ⟨hg, hother⟩

theorem waits_readsOf {k : Nat} {stop : Member → Bool} {view : Nat → Option View}
    (h : (o.readsOf k stop view).Waits g since) :
    since = o.clock.monoMs ∨ o.Waits g since := by
  unfold readsOf at h
  cases hnext : (o.member? k).bind fun x => o.reads x (stop x) (view x.link) with
  | none => exact .inr (by rwa [hnext] at h)
  | some o' =>
    rw [hnext] at h
    obtain ⟨x, -, hreads⟩ := Option.bind_eq_some_iff.mp hnext
    exact (waits_reads hreads h).imp_right And.right

theorem waits_takes {p : WorkerKey × Outline} (h : o.takes = some p)
    (waits : p.2.Waits g since) : o.Waits g since := by
  unfold takes at h
  split at h
  · cases h
  · obtain rfl := Option.some.inj h
    exact waits_line.mp (waits_returns waits)

theorem waits_aggregates (h : o.aggregates.Waits g since) : o.Waits g since := by
  unfold aggregates at h
  split at h
  · cases htakes : o.takes with
    | none =>
      rw [htakes] at h
      dsimp only at h
      split at h <;> exact h
    | some p =>
      rw [htakes] at h
      exact waits_takes htakes h
  · exact h

/-- A connection that joins waits since now. -/
theorem waits_registers {r : Registry} {key : WorkerKey} {link : Nat}
    (h : (o.registers r key link).Waits g since) : since = o.clock.monoMs ∨ o.Waits g since := by
  unfold registers at h
  split at h
  · obtain ⟨x, hx, hg, hphase⟩ := h
    rcases List.mem_append.mp hx with hold | hnew
    · exact .inr ⟨x, hold, hg, hphase⟩
    · obtain rfl := List.mem_singleton.mp hnew
      exact .inl (Phase.waiting.inj hphase).symm
  · exact .inr h

theorem clock_withdraws {link : Nat} {u : WorkerKey × Outline} (h : o.withdraws link = some u) :
    u.2.clock = o.clock := by
  obtain ⟨v, -, rfl⟩ := Option.map_eq_some_iff.mp h
  rfl

/-- Who waits to be registered has no part in who waits for a frame. -/
theorem waits_withdraws {link : Nat} {u : WorkerKey × Outline} (h : o.withdraws link = some u) :
    u.2.Waits g since ↔ o.Waits g since := by
  obtain ⟨v, -, rfl⟩ := Option.map_eq_some_iff.mp h
  exact Iff.rfl

theorem waits_upgraded {r : Registry} {link : Nat} (h : (o.upgraded r link).Waits g since) :
    since = o.clock.monoMs ∨ o.Waits g since := by
  unfold upgraded at h
  cases htake : o.withdraws link with
  | none => exact .inr (by rwa [htake] at h)
  | some u =>
    rw [htake] at h
    rw [← clock_withdraws htake, ← waits_withdraws htake]
    exact waits_registers h

/-- **Nobody begins to wait but since now**, whatever happens. -/
theorem waits_acts {r : Registry} {view : Nat → Option View} {a : Action}
    (h : (o.acts r view a).Waits g since) : since = o.clock.monoMs ∨ o.Waits g since := by
  cases a with
  | step t =>
    cases t with
    | reader k => exact waits_readsOf h
    | aggregator => exact .inr (waits_aggregates h)
    | upgrade link => exact waits_upgraded h
    | _ => exact .inr h
  | readEarly k => exact waits_readsOf h
  | register key link => exact waits_registers h
  | failUpgrade link =>
    rw [acts] at h
    cases htake : o.withdraws link with
    | none => exact .inr (by rwa [htake] at h)
    | some u =>
      rw [htake] at h
      exact .inr ((waits_withdraws htake).mp h)
  | take =>
    rw [acts] at h
    cases htakes : o.takes with
    | none => exact .inr (by rwa [htakes] at h)
    | some p =>
      rw [htakes] at h
      exact .inr (waits_takes htakes h)
  | _ => exact .inr h

end

/-! ### The clocks of an outline -/

theorem clock_granted (next : Option Nat) (o : Outline) : (o.granted next).clock = o.clock := by
  cases next <;> rfl

theorem clock_readsOf (g : Nat) (stop : Member → Bool) (view : Nat → Option View) (o : Outline) :
    (o.readsOf g stop view).clock = o.clock := by
  unfold readsOf
  cases hnext : (o.member? g).bind fun x => o.reads x (stop x) (view x.link) with
  | none => rfl
  | some o' =>
    obtain ⟨x, -, hreads⟩ := Option.bind_eq_some_iff.mp hnext
    cases strides_of_reads hreads with
    | goes l next p _ _ _ h =>
      subst h
      exact clock_granted next _
    | leaves _ h =>
      subst h
      rfl

theorem clock_takes {o : Outline} {p : WorkerKey × Outline} (h : o.takes = some p) :
    p.2.clock = o.clock := by
  unfold takes at h
  split at h
  · cases h
  · obtain rfl := Option.some.inj h
    unfold returns
    split
    · rfl
    · exact clock_granted _ _

theorem clock_aggregates (o : Outline) : o.aggregates.clock = o.clock := by
  unfold aggregates
  split
  · cases htakes : o.takes with
    | none =>
      dsimp only
      split <;> rfl
    | some p => exact clock_takes htakes
  · rfl

theorem clock_registers (r : Registry) (key : WorkerKey) (link : Nat) (o : Outline) :
    (o.registers r key link).clock = o.clock := by
  unfold registers
  split <;> rfl

/-- The clocks are what they are set to. -/
theorem clock_acts (r : Registry) (view : Nat → Option View) (a : Action) (o : Outline) :
    (o.acts r view a).clock = a.sets.getD o.clock := by
  cases a with
  | step t =>
    cases t with
    | reader g => exact clock_readsOf g _ view o
    | aggregator => exact clock_aggregates o
    | upgrade link =>
      rw [acts, upgraded]
      cases htake : o.withdraws link with
      | none => rfl
      | some u =>
        rw [Option.elim_some, clock_registers]
        exact clock_withdraws htake
    | _ => rfl
  | readEarly g => exact clock_readsOf g _ view o
  | register key link => exact clock_registers r key link o
  | failUpgrade link =>
    rw [acts]
    cases htake : o.withdraws link with
    | none => rfl
    | some u => exact clock_withdraws htake
  | take =>
    rw [acts]
    cases htakes : o.takes with
    | none => rfl
    | some p => exact clock_takes htakes
  | _ => rfl

end Outline

/-! ### Who waits in a server -/

/-- Where the read loop of a connection stands. -/
def reader? (g : Nat) (s : Server) : Option Reader := (s.connection? g).map (·.reader)

section

variable {a : Action} {s : Server} {g since : Nat}

theorem reader?_of_found {c : Connection} (h : s.connection? g = some c) :
    s.reader? g = some c.reader := by
  rw [reader?, h]
  rfl

theorem waits_of_reader? (h : s.reader? g = some (.waiting since)) : s.outline.Waits g since := by
  obtain ⟨c, hc, hr⟩ := Option.map_eq_some_iff.mp h
  refine ⟨c.member, List.mem_map_of_mem (List.mem_of_find?_eq_some hc),
    generation_of_connection? hc, ?_⟩
  rw [Connection.member, hr]
  rfl

theorem reader?_of_waits (hosted : Hosted s) (h : s.outline.Waits g since) :
    s.reader? g = some (.waiting since) := by
  obtain ⟨x, hx, hg, hphase⟩ := h
  obtain ⟨c, hc, rfl⟩ := List.mem_map.mp hx
  obtain rfl : c.generation = g := hg
  rw [reader?_of_found (connection?_of_mem hosted hc)]
  simp only [Connection.member] at hphase
  cases hr : c.reader <;> simp_all [Reader.phase]

/-- Only clock actions set the clocks. -/
theorem clock_act (hosted : Hosted s) (a : Action) : (s.act a).clock = a.sets.getD s.clock := by
  have h := s.outline.clock_acts s.registry (s.view? ·) a
  rw [← outline_act hosted] at h
  exact h

/-- A read loop that can take a step moves its outline. -/
theorem reads_of_reader (reader : a.reader = some g) :
    s.act a = s ∨ ∃ c stop view, c.generation = g ∧
      s.outline.reads (Connection.member c) stop view = some (s.act a).outline := by
  have hstep {c : Connection} {next : Server} (hg : c.generation = g)
      (hnext : s.readAs c = some next) : ∃ c stop view, c.generation = g ∧
        s.outline.reads (Connection.member c) stop view = some next.outline := by
    have hreads := outline_readAs c s
    rw [hnext] at hreads
    exact ⟨c, _, _, hg, hreads.symm⟩
  cases a with
  | step t =>
    cases t with
    | reader k =>
      obtain rfl := Option.some.inj reader
      rw [act, step, readStep_eq]
      cases hnext : (s.connection? k).bind fun c => s.readAs c with
      | none => exact .inl rfl
      | some next =>
        obtain ⟨c, hc, hread⟩ := Option.bind_eq_some_iff.mp hnext
        exact .inr (hstep (generation_of_connection? hc) hread)
    | _ => cases reader
  | readEarly k =>
    obtain rfl := Option.some.inj reader
    rw [act]
    cases hnext : (s.connection? k).bind fun c => s.readAs c.unaware with
    | none => exact .inl rfl
    | some next =>
      obtain ⟨c, hc, hread⟩ := Option.bind_eq_some_iff.mp hnext
      have hg : c.generation = k := generation_of_connection? hc
      exact .inr (hstep (c := c.unaware) hg hread)
  | _ => cases reader

/-- **A read loop that waits has just begun to, or it has waited and done nothing else.** -/
theorem waiting_act (hosted : Hosted s) (a : Action)
    (h : (s.act a).reader? g = some (.waiting since)) :
    since = (s.act a).clock.monoMs ∨
      s.reader? g = some (.waiting since) ∧ (a.reader = some g → s.act a = s) := by
  have hwaits := waits_of_reader? h
  cases hsets : a.sets with
  | some c =>
    obtain rfl := Action.eq_clock hsets
    exact .inr ⟨h, nofun⟩
  | none =>
    have hclock : (s.act a).clock = s.clock := by rw [clock_act hosted, hsets, Option.getD_none]
    rw [hclock]
    by_cases hreader : a.reader = some g
    · rcases reads_of_reader hreader with hsame | ⟨c, stop, view, hg, hreads⟩
      · rw [hsame] at h
        exact .inr ⟨h, fun _ => hsame⟩
      · rcases Outline.waits_reads hreads hwaits with hnow | ⟨hne, -⟩
        · exact .inl hnow
        · exact absurd hg.symm hne
    · rw [outline_act hosted] at hwaits
      rcases Outline.waits_acts hwaits with hnow | hold
      · exact .inl hnow
      · exact .inr ⟨reader?_of_waits hosted hold, fun hr => absurd hr hreader⟩

/-! ### Nobody waits too long -/

/-- Whoever waits for a frame has not waited for longer than the timeout. -/
def Punctual (s : Server) : Prop :=
  ∀ g since, s.reader? g = some (.waiting since) →
    since ≤ s.clock.monoMs ∧ s.clock.monoMs ≤ since + s.hub.keepaliveTimeoutMs

theorem punctual_start (hc : s.connections = []) : Punctual s := by
  intro g since h
  simp [reader?, connection?, hc] at h

/-- A read loop that has waited for the whole timeout does not wait on. -/
theorem isSome_readAs_of_due {c : Connection} (waits : c.reader = .waiting since)
    (link : (s.link? c.link).isSome = true)
    (due : since + s.hub.keepaliveTimeoutMs ≤ s.clock.monoMs) : (s.readAs c).isSome = true := by
  obtain ⟨l, hl⟩ := Option.isSome_iff_exists.mp link
  simp only [readAs, waits, hl, Option.bind_some, readWaiting, if_pos due]
  split
  · rfl
  · split
    · rfl
    · split <;> rfl

theorem punctual_act (hosted : Hosted s) (plugged : Plugged s) (ok : Punctual s)
    (timely : a.sets.all (s.reaches ·)) : Punctual (s.act a) := by
  intro g since h
  rw [hub_act hosted]
  rcases waiting_act hosted a h with rfl | ⟨hold, -⟩
  · exact ⟨Nat.le_refl _, Nat.le_add_right _ _⟩
  · have hbefore := ok g since hold
    rw [clock_act hosted]
    cases hsets : a.sets with
    | none => exact hbefore
    | some c =>
      rw [hsets] at timely
      rcases reaches_iff.mp timely with hsame | ⟨hpasses, htimers⟩
      · rw [Option.getD_some, hsame]
        exact hbefore
      · -- The timer of the loop that waits is one of those that are set.
        obtain ⟨d, hd, hr⟩ := Option.map_eq_some_iff.mp hold
        have hmem := List.mem_of_find?_eq_some hd
        have htimer := htimers d hmem
          (since + s.hub.keepaliveTimeoutMs, .reader d.generation) (by simp [timers, hr])
        rw [Option.getD_some]
        rcases htimer with hahead | ⟨hdue, hnone⟩
        · exact ⟨by omega, hahead⟩
        · have hsome := isSome_readAs_of_due hr (plugged.isSome_link? hmem) hdue
          rw [Server.step, readStep_eq, connection?_of_mem hosted hmem, Option.bind_some] at hnone
          simp [hnone] at hsome

end

end Foreman.Server
