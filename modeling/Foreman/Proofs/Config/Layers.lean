/-
What the file gives, and what the environment makes of it.

A configuration is loaded in two layers, and either can stop it.  What each layer comes to is
said here once, together with the condition on which it comes to nothing, and `Loading`
joins the two: it has one case for each way in which loading can end.  Everything else
about loading is a case analysis over it and does not follow the checks again.

The file is stopped by its keep-alive interval, if three times the interval does not fit
into sixty-four bits, and else by the first of its accounts that cannot be read.  The
environment is stopped by a keep-alive pair that has to be mended and cannot be.
-/
import Foreman.Config.Load

namespace Foreman.Config

/-! ### The keep-alive pair -/

/-- Three times an interval does not fit into sixty-four bits. -/
def TooLong (intervalSecs : Nat) : Prop := Nat.pow 2 64 ≤ 3 * intervalSecs

theorem triple?_of_tooLong {n : Nat} (h : TooLong n) : triple? n = .error .intervalTooLong :=
  if_neg (Nat.not_lt.mpr h)

theorem triple?_of_not_tooLong {n : Nat} (h : ¬ TooLong n) : triple? n = .ok (3 * n) :=
  if_pos (Nat.not_le.mp h)

/-- The settings with their keep-alive pair mended. -/
def mended (s : ServerSettings) : ServerSettings :=
  { s with keepaliveTimeoutSecs :=
      if s.keepaliveTimeoutSecs ≤ s.keepaliveIntervalSecs then 3 * s.keepaliveIntervalSecs
      else s.keepaliveTimeoutSecs }

/-- The keep-alive pair has to be mended and cannot be. -/
def Unmendable (s : ServerSettings) : Prop :=
  s.keepaliveTimeoutSecs ≤ s.keepaliveIntervalSecs ∧ TooLong s.keepaliveIntervalSecs

theorem fixKeepalive_of_unmendable {s : ServerSettings} (h : Unmendable s) :
    fixKeepalive s = .error .intervalTooLong := by
  rw [fixKeepalive, if_pos h.1, triple?_of_tooLong h.2]
  rfl

theorem fixKeepalive_of_mendable {s : ServerSettings} (h : ¬ Unmendable s) :
    ∃ notices, fixKeepalive s = .ok (mended s, notices) := by
  unfold fixKeepalive mended
  by_cases hle : s.keepaliveTimeoutSecs ≤ s.keepaliveIntervalSecs
  · have hfits : ¬ TooLong s.keepaliveIntervalSecs := fun hlong => h ⟨hle, hlong⟩
    rw [if_pos hle, if_pos hle, triple?_of_not_tooLong hfits]
    exact ⟨_, rfl⟩
  · rw [if_neg hle, if_neg hle]
    exact ⟨_, rfl⟩

/-! ### Accounts -/

/-- An account's id is there and cannot be read, or its kind cannot. -/
def FileUser.Unreadable (u : FileUser) : Prop :=
  (∃ raw cause, u.id = some raw ∧ UserId.parse raw = .error cause) ∨
    ∃ cause, UserType.parse u.kind = .error cause

theorem FileUser.not_unreadable {u : FileUser} {kind : UserType}
    (hid : ∀ raw, u.id = some raw → ∃ id, UserId.parse raw = .ok id)
    (hkind : UserType.parse u.kind = .ok kind) : ¬ u.Unreadable := by
  rintro (⟨raw, cause, hraw, herror⟩ | ⟨cause, herror⟩)
  · obtain ⟨id, hok⟩ := hid raw hraw
    rw [hok] at herror
    simp at herror
  · rw [hkind] at herror
    simp at herror

/-- An entry of the file becomes an account, or is refused for what cannot be read. -/
theorem identityOf_spec (newId : UserId) (u : FileUser) :
    (∃ who, identityOf newId u = .ok who ∧ ¬ u.Unreadable) ∨
      ∃ e, identityOf newId u = .error e ∧ e ≠ .intervalTooLong ∧ u.Unreadable := by
  unfold identityOf
  cases hraw : u.id with
  | none =>
    cases hkind : UserType.parse u.kind with
    | ok kind => exact .inl ⟨_, rfl, u.not_unreadable (by simp [hraw]) hkind⟩
    | error cause => exact .inr ⟨_, rfl, by simp, .inr ⟨cause, hkind⟩⟩
  | some raw =>
    cases hparse : UserId.parse raw with
    | error cause =>
      refine .inr ⟨.userId u.email cause, ?_, by simp, .inl ⟨raw, cause, hraw, hparse⟩⟩
      simp only [hparse]
      rfl
    | ok id =>
      simp only [hparse]
      cases hkind : UserType.parse u.kind with
      | ok kind =>
        refine .inl ⟨_, rfl, u.not_unreadable ?_ hkind⟩
        intro raw' hraw'
        rw [hraw] at hraw'
        exact ⟨id, Option.some.inj hraw' ▸ hparse⟩
      | error cause => exact .inr ⟨_, rfl, by simp, .inr ⟨cause, hkind⟩⟩

/-- The entries of the file become accounts, unless one of them cannot be read. -/
theorem identitiesOf_spec (newId : Nat → UserId) (users : List FileUser) :
    (∃ accounts, identitiesOf newId users = .ok accounts ∧ ∀ u ∈ users, ¬ u.Unreadable) ∨
      ∃ e, identitiesOf newId users = .error e ∧ e ≠ .intervalTooLong ∧
        ∃ u ∈ users, u.Unreadable := by
  unfold identitiesOf
  generalize 0 = first
  induction users generalizing first with
  | nil => exact .inl ⟨[], rfl, by simp⟩
  | cons u us ih =>
    rw [List.zipIdx_cons, List.mapM_cons]
    rcases identityOf_spec (newId first) u with ⟨who, hwho, hu⟩ | ⟨e, he, hne, hu⟩
    · rw [hwho]
      rcases ih (first + 1) with ⟨accounts, haccounts, hus⟩ | ⟨e, he, hne, v, hv, hbad⟩
      · rw [haccounts]
        exact .inl ⟨who :: accounts, rfl, List.forall_mem_cons.mpr ⟨hu, hus⟩⟩
      · rw [he]
        exact .inr ⟨e, rfl, hne, v, List.mem_cons_of_mem u hv, hbad⟩
    · rw [he]
      exact .inr ⟨e, rfl, hne, u, List.mem_cons_self, hu⟩

/-! ### The file -/

theorem positiveOr_pos {default : Nat} (h : 0 < default) (n : Option Nat) :
    0 < positiveOr default n := by
  unfold positiveOr
  cases hn : n.filter (0 < ·) with
  | none => exact h
  | some n => simpa using (Option.filter_eq_some_iff.mp hn).2

/-- The keep-alive interval that a file gives. -/
def fileInterval (f : File) : Nat := positiveOr 10 f.server.keepaliveInterval

/-- The settings of the server that a file gives. -/
def fileServer (f : FileServer) : ServerSettings where
  bind := nonEmpty f.bind
  metricsBind := nonEmpty f.metricsBind
  healthBind := nonEmpty f.healthBind
  secret := (nonEmpty f.secret).map Secret.mk
  serviceTokens := f.serviceTokens.filterMap normalizeServiceToken
  outboundCapacity := positiveOr 64 f.outboundCapacity
  keepaliveIntervalSecs := positiveOr 10 f.keepaliveInterval
  keepaliveTimeoutSecs := positiveOr (3 * positiveOr 10 f.keepaliveInterval) f.keepaliveTimeout
  maxFrameBytes := positiveOr TextFrame.defaultLimit f.maxFrameBytes

/-- The configuration that a file gives with these accounts. -/
def fileConfig (f : File) (accounts : List Identity) : Config where
  server := mended (fileServer f.server)
  pipeline := {
    queueCapacity := positiveOr 100 f.pipeline.queueCapacity
    payoutThreshold := f.pipeline.payoutThreshold.getD 1 }
  persistence := {
    enabled := f.persistence.enabled.getD false
    databaseUrl := nonEmpty f.persistence.databaseUrl }
  users := accounts
  serviceTokenUsers := normalBindings f.serviceTokenUsers

section

variable {newId : Nat → UserId} {f : File}

theorem ofFile_of_tooLong (h : TooLong (fileInterval f)) :
    ofFile newId f = .error .intervalTooLong := by
  have htriple : triple? (positiveOr 10 f.server.keepaliveInterval) = .error .intervalTooLong :=
    triple?_of_tooLong h
  unfold ofFile
  dsimp only
  rw [htriple]
  rfl

theorem ofFile_of_error (h : ¬ TooLong (fileInterval f)) {e : LoadError}
    (he : identitiesOf newId f.users = .error e) : ofFile newId f = .error e := by
  have htriple : triple? (positiveOr 10 f.server.keepaliveInterval) =
      .ok (3 * positiveOr 10 f.server.keepaliveInterval) := triple?_of_not_tooLong h
  unfold ofFile
  dsimp only
  rw [htriple, he]
  rfl

/-- The file's own pair can always be mended: its interval has been tried before. -/
theorem ofFile_of_ok (h : ¬ TooLong (fileInterval f)) {accounts : List Identity}
    (haccounts : identitiesOf newId f.users = .ok accounts) :
    ∃ notices, ofFile newId f = .ok (fileConfig f accounts, notices) := by
  have htriple : triple? (positiveOr 10 f.server.keepaliveInterval) =
      .ok (3 * positiveOr 10 f.server.keepaliveInterval) := triple?_of_not_tooLong h
  have hmendable : ¬ Unmendable (fileServer f.server) := fun hbad => h hbad.2
  obtain ⟨notices, hfix⟩ := fixKeepalive_of_mendable hmendable
  refine ⟨notices, ?_⟩
  unfold fileServer at hfix
  unfold ofFile
  dsimp only
  rw [htriple, haccounts]
  simp only [bind, Except.bind, hfix]
  rfl

end

/-! ### The environment -/

/-- An environment that sets one variable. -/
def Environment.only (v : Variable) (value : String) : Environment :=
  fun w => if w = v then some value else none

/-- The configuration with the settings of the environment in their place, and its keep-alive pair
mended. -/
def overridden (env : Environment) (c : Config) : Config :=
  { c with
    server := mended (overrideServer env c.server)
    pipeline := {
      queueCapacity := (positive? env .queueCapacity).getD c.pipeline.queueCapacity
      payoutThreshold := (number? env .payoutThreshold).getD c.pipeline.payoutThreshold }
    persistence := {
      enabled := ((textOf? env .persistenceEnabled).bind parseSwitch).getD c.persistence.enabled
      databaseUrl := (textOf? env .databaseUrl).or c.persistence.databaseUrl } }

section

variable {env : Environment} {c : Config}

theorem override_of_unmendable (h : Unmendable (overrideServer env c.server)) :
    override env c = .error .intervalTooLong := by
  rw [override, fixKeepalive_of_unmendable h]
  rfl

theorem override_of_mendable (h : ¬ Unmendable (overrideServer env c.server)) :
    ∃ notices, override env c = .ok (overridden env c, notices) := by
  obtain ⟨notices, hfix⟩ := fixKeepalive_of_mendable h
  rw [override, hfix]
  exact ⟨_, rfl⟩

end

/-! ### Both layers -/

/-- How loading ends. -/
inductive Loading (newId : Nat → UserId) (f : File) (env : Environment) :
    Except LoadError (Config × List Notice) → Prop where
  | interval (h : TooLong (fileInterval f)) : Loading newId f env (.error .intervalTooLong)
  | account {e : LoadError} (h : ¬ TooLong (fileInterval f))
      (he : identitiesOf newId f.users = .error e) : Loading newId f env (.error e)
  | pair {accounts : List Identity} (h : ¬ TooLong (fileInterval f))
      (haccounts : identitiesOf newId f.users = .ok accounts)
      (hpair : Unmendable (overrideServer env (fileConfig f accounts).server)) :
      Loading newId f env (.error .intervalTooLong)
  | loaded {accounts : List Identity} {notices : List Notice} (h : ¬ TooLong (fileInterval f))
      (haccounts : identitiesOf newId f.users = .ok accounts)
      (hpair : ¬ Unmendable (overrideServer env (fileConfig f accounts).server)) :
      Loading newId f env (.ok (overridden env (fileConfig f accounts), notices))

section

variable {newId : Nat → UserId} {f : File} {env : Environment}

/-- The environment is laid over what the file alone comes to. -/
theorem ofSettings_of_ofFile {c : Config} {early : List Notice}
    (h : ofFile newId f = .ok (c, early)) :
    ofSettings newId f env = (override env c).map fun late => (late.1, early ++ late.2) := by
  rw [ofSettings, h]
  show (override env c).bind _ = _
  cases override env c <;> rfl

theorem ofSettings_of_ok {accounts : List Identity} (hfits : ¬ TooLong (fileInterval f))
    (haccounts : identitiesOf newId f.users = .ok accounts)
    (hpair : ¬ Unmendable (overrideServer env (fileConfig f accounts).server)) :
    ∃ notices, ofSettings newId f env = .ok (overridden env (fileConfig f accounts), notices) := by
  obtain ⟨early, hfile⟩ := ofFile_of_ok hfits haccounts
  obtain ⟨late, hover⟩ := override_of_mendable hpair
  rw [ofSettings_of_ofFile hfile, hover]
  exact ⟨_, rfl⟩

end

theorem ofSettings_loading (newId : Nat → UserId) (f : File) (env : Environment) :
    Loading newId f env (ofSettings newId f env) := by
  by_cases hlong : TooLong (fileInterval f)
  · rw [ofSettings, ofFile_of_tooLong hlong]
    exact .interval hlong
  · cases haccounts : identitiesOf newId f.users with
    | error e =>
      rw [ofSettings, ofFile_of_error hlong haccounts]
      exact .account hlong haccounts
    | ok accounts =>
      by_cases hpair : Unmendable (overrideServer env (fileConfig f accounts).server)
      · obtain ⟨early, hfile⟩ := ofFile_of_ok hlong haccounts
        rw [ofSettings_of_ofFile hfile, override_of_unmendable hpair]
        exact .pair hlong haccounts hpair
      · obtain ⟨notices, hload⟩ := ofSettings_of_ok hlong haccounts hpair
        rw [hload]
        exact .loaded hlong haccounts hpair

/-- A file that could be read is loaded with the environment over it. -/
theorem load_of_file {path : String} {source : Source} {f : File} (h : source.file path = .ok f)
    (newId : Nat → UserId) (env : Environment) :
    load newId path source env = ofSettings newId f env := by
  rw [load, h]
  rfl

theorem load_loading {path : String} {source : Source} {f : File} (h : source.file path = .ok f)
    (newId : Nat → UserId) (env : Environment) :
    Loading newId f env (load newId path source env) := by
  rw [load_of_file h]
  exact ofSettings_loading newId f env

end Foreman.Config
