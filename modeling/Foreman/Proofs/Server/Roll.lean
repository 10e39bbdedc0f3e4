/-
Which connections there are, and which wait to be registered.

A connection keeps its key and its link for good, and nothing that a loop does brings one
in or takes one off the list of those that wait.  As both show in the outline, it is enough
to look at what actions make of outlines: `sameRoll_act` deals with every action but the
three that are about connections.
-/
import Mathlib.Data.List.Perm.Subperm
import Foreman.Proofs.Server.OutlineAct

namespace Foreman.Server

/-! ### Keys and links -/

/-- The action makes a connection, or announces one. -/
def Action.enrols : Action → Bool
  | .register _ _ => true
  | .upgrade _ _ => true
  | .step (.upgrade _) => true
  | .failUpgrade _ => true
  | _ => false

namespace Outline

/-- The keys and links of the connections. -/
def roll (o : Outline) : List (WorkerKey × Nat) := o.members.map fun x => (x.key, x.link)

@[simp] theorem roll_moved (g : Nat) (f : Phase → Phase) (o : Outline) :
    (o.moved g f).roll = o.roll := by
  simp only [roll, moved, List.map_map]
  refine List.map_congr_left fun x _ => ?_
  simp only [Function.comp]
  split <;> rfl

@[simp] theorem roll_goes (x : Member) (p : Phase) (o : Outline) : (o.goes x p).roll = o.roll :=
  roll_moved _ _ o

@[simp] theorem roll_returns (o : Outline) : o.returns.roll = o.roll := by
  unfold returns
  split
  · rfl
  · exact roll_moved _ _ _

@[simp] theorem upgrades_returns (o : Outline) : o.returns.upgrades = o.upgrades := by
  unfold returns
  split <;> rfl

@[simp] theorem roll_granted (next : Option Nat) (o : Outline) :
    (o.granted next).roll = o.roll := by
  cases next with
  | none => rfl
  | some g => exact roll_moved g _ o

@[simp] theorem upgrades_granted (next : Option Nat) (o : Outline) :
    (o.granted next).upgrades = o.upgrades := by
  cases next <;> rfl

theorem roll_reads {x : Member} {stop : Bool} {view : Option View} {o o' : Outline}
    (h : o.reads x stop view = some o') : o'.roll = o.roll ∧ o'.upgrades = o.upgrades := by
  cases strides_of_reads h with
  | goes l next p _ _ _ h =>
    subst h
    exact ⟨(roll_goes x p _).trans (roll_granted next _), upgrades_granted next _⟩
  | leaves _ h =>
    subst h
    exact ⟨roll_goes x .stopped _, rfl⟩

theorem roll_takes {o : Outline} {p : WorkerKey × Outline} (h : o.takes = some p) :
    p.2.roll = o.roll ∧ p.2.upgrades = o.upgrades := by
  unfold takes at h
  split at h
  · cases h
  · obtain rfl := Option.some.inj h
    exact ⟨roll_returns _, upgrades_returns _⟩

theorem roll_readsOf (g : Nat) (stop : Member → Bool) (view : Nat → Option View) (o : Outline) :
    (o.readsOf g stop view).roll = o.roll ∧ (o.readsOf g stop view).upgrades = o.upgrades := by
  unfold readsOf
  cases hnext : (o.member? g).bind fun x => o.reads x (stop x) (view x.link) with
  | none => exact ⟨rfl, rfl⟩
  | some o' =>
    obtain ⟨x, -, hreads⟩ := Option.bind_eq_some_iff.mp hnext
    exact roll_reads hreads

theorem roll_aggregates (o : Outline) :
    o.aggregates.roll = o.roll ∧ o.aggregates.upgrades = o.upgrades := by
  unfold aggregates
  split
  · cases htakes : o.takes with
    | none =>
      dsimp only
      split <;> exact ⟨rfl, rfl⟩
    | some p => exact roll_takes htakes
  · exact ⟨rfl, rfl⟩

/-- An action that makes no connection and announces none keeps the roll. -/
theorem roll_acts {a : Action} (h : a.enrols = false) (r : Registry) (view : Nat → Option View)
    (o : Outline) : (o.acts r view a).roll = o.roll ∧ (o.acts r view a).upgrades = o.upgrades := by
  cases a with
  | step t =>
    cases t with
    | reader g => exact roll_readsOf g _ view o
    | aggregator => exact roll_aggregates o
    | upgrade link => cases h
    | _ => exact ⟨rfl, rfl⟩
  | readEarly g => exact roll_readsOf g _ view o
  | register key link => cases h
  | upgrade key link => cases h
  | failUpgrade link => cases h
  | take =>
    rw [acts]
    cases htakes : o.takes with
    | none => exact ⟨rfl, rfl⟩
    | some p => exact roll_takes htakes
  | _ => exact ⟨rfl, rfl⟩

end Outline

/-- The same connections are there, and the same wait to be registered. -/
structure SameRoll (s s' : Server) : Prop where
  roll : s'.outline.roll = s.outline.roll
  upgrades : s'.upgrades = s.upgrades

theorem SameRoll.refl (s : Server) : SameRoll s s := ⟨rfl, rfl⟩

theorem SameRoll.trans {s₁ s₂ s₃ : Server} (h₁ : SameRoll s₁ s₂) (h₂ : SameRoll s₂ s₃) :
    SameRoll s₁ s₃ :=
  ⟨h₂.roll.trans h₁.roll, h₂.upgrades.trans h₁.upgrades⟩

/-- What does not show in the outline keeps the roll. -/
theorem SameRoll.of_outline {s s' : Server} (h : s'.outline = s.outline) : SameRoll s s' :=
  ⟨congrArg Outline.roll h, congrArg Outline.upgrades h⟩

/-- **An action that makes no connection and announces none keeps the roll.** -/
theorem sameRoll_act {s : Server} (hosted : Hosted s) {a : Action} (h : a.enrols = false) :
    SameRoll s (s.act a) := by
  obtain ⟨hroll, hupgrades⟩ := Outline.roll_acts h s.registry (s.view? ·) s.outline
  rw [← outline_act hosted] at hroll hupgrades
  exact ⟨hroll, hupgrades⟩

/-! ### The connections that are enlisted -/

/-- The connections that there are, in the order in which they came, and after them those that
wait to be registered. -/
def enlisted (s : Server) : List (WorkerKey × Nat) := s.outline.roll ++ s.upgrades

theorem enlisted_eq (s : Server) :
    s.enlisted = s.connections.map (fun c => (c.key, c.link)) ++ s.upgrades := by
  rw [enlisted, Outline.roll, outline, List.map_map]
  rfl

theorem SameRoll.enlisted {s s' : Server} (h : SameRoll s s') : s'.enlisted = s.enlisted := by
  rw [Server.enlisted, Server.enlisted, h.roll, h.upgrades]

namespace Outline

theorem withdraws_eq_some {o o' : Outline} {key : WorkerKey} {link : Nat}
    (h : o.withdraws link = some (key, o')) :
    (key, link) ∈ o.upgrades ∧ o' = { o with upgrades := o.upgrades.erase (key, link) } := by
  obtain ⟨u, hfind, hu⟩ := Option.map_eq_some_iff.mp h
  obtain ⟨rfl, rfl⟩ := Prod.mk.inj hu
  obtain rfl : u.2 = link := by simpa using List.find?_some hfind
  exact ⟨List.mem_of_find?_eq_some hfind, rfl⟩

/-- A connection that waits is registered, or it is refused. -/
theorem roll_upgraded (r : Registry) (link : Nat) (o : Outline) :
    ((o.upgraded r link).roll ++ (o.upgraded r link).upgrades).Subperm (o.roll ++ o.upgrades) ∧
      (o.upgraded r link).upgrades.length ≤ o.upgrades.length := by
  unfold upgraded
  cases htake : o.withdraws link with
  | none => exact ⟨.refl _, Nat.le_refl _⟩
  | some u =>
    obtain ⟨key, t⟩ := u
    obtain ⟨hmem, rfl⟩ := withdraws_eq_some htake
    have hlength : (o.upgrades.erase (key, link)).length ≤ o.upgrades.length :=
      List.erase_sublist.length_le
    rw [Option.elim_some, registers]
    split
    · refine ⟨List.Perm.subperm ?_, hlength⟩
      simp only [joined, roll, List.map_append, List.map_singleton, List.append_assoc,
        List.singleton_append]
      exact (List.perm_cons_erase hmem).symm.append_left _
    · exact ⟨(List.erase_sublist.append_left _).subperm, hlength⟩

/-- A connection whose upgrade fails waits no longer. -/
theorem roll_withdrawn (link : Nat) (o : Outline) :
    (((o.withdraws link).elim o (·.2)).roll ++ ((o.withdraws link).elim o (·.2)).upgrades).Subperm
        (o.roll ++ o.upgrades) ∧
      ((o.withdraws link).elim o (·.2)).upgrades.length ≤ o.upgrades.length := by
  cases htake : o.withdraws link with
  | none => exact ⟨.refl _, Nat.le_refl _⟩
  | some u =>
    obtain ⟨key, t⟩ := u
    obtain ⟨-, rfl⟩ := withdraws_eq_some htake
    rw [Option.elim_some]
    exact ⟨(List.erase_sublist.append_left _).subperm, List.erase_sublist.length_le⟩

end Outline

/-- Nobody begins to wait when a connection that waits is registered. -/
theorem enlisted_upgradeStep (link : Nat) (s : Server) :
    (s.act (.step (.upgrade link))).enlisted.Subperm s.enlisted ∧
      (s.act (.step (.upgrade link))).upgrades.length ≤ s.upgrades.length := by
  have h := s.outline.roll_upgraded s.registry link
  rw [← outline_upgradeStep] at h
  exact h

/-- Nor when its upgrade fails. -/
theorem enlisted_failUpgrade (link : Nat) (s : Server) :
    (s.failUpgrade link).enlisted.Subperm s.enlisted ∧
      (s.failUpgrade link).upgrades.length ≤ s.upgrades.length := by
  have h := s.outline.roll_withdrawn link
  rw [← outline_failUpgrade] at h
  exact h

/-- **A registration under a key that nobody holds is nothing to the others**: they stay live, and
none is told to stop. -/
theorem upgradeStep_of_free {s : Server} (free : ∀ p ∈ s.upgrades, s.registry.find p.1 = none)
    (link : Nat) :
    s.standings <+: (s.act (.step (.upgrade link))).standings ∧
      ∀ k g, s.registry.find k = some g →
        (s.act (.step (.upgrade link))).registry.find k = some g := by
  have hsame {s' : Server} (h : SameHub s s') :
      s.standings <+: s'.standings ∧ ∀ k g, s.registry.find k = some g →
        s'.registry.find k = some g := by
    rw [h.standings, h.registry]
    exact ⟨List.prefix_rfl, fun _ _ => id⟩
  refine getD_of_forall (P := fun s' => s.standings <+: s'.standings ∧
    ∀ k g, s.registry.find k = some g → s'.registry.find k = some g) (hsame (.refl s)) ?_
  intro s' hs
  cases upgradeCase_of_upgradeStep hs with
  | joins key waits isOpen h =>
    have hopen : ({ s with upgrades := s.upgrades.erase (key, link) } : Server).registry.isOpen =
      true := isOpen
    have hfree : ({ s with upgrades := s.upgrades.erase (key, link) } : Server).registry.find key =
      none := free _ waits
    rw [← h, standings_register hopen, registry_register hopen, hfree, Option.toList_none,
      map_told_nil]
    refine ⟨List.prefix_append _ _, fun k g hk => ?_⟩
    rw [Registry.find_register hopen, if_neg]
    · exact hk
    · rintro rfl
      rw [hfree] at hk
      cases hk
  | refused key _ _ h =>
    rw [← h]
    exact hsame ((quiet_withdrawn _ s).trans
      ((quiet_dropLink link _).trans (quiet_note _ _))).sameHub

end Foreman.Server
