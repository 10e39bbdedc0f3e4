/-
The keep-alive pair that file and environment come to.

An interval and a timeout may each be given in the file and in the environment.  What is
meant by them is `keepalivePair`: the interval is the one given, or else ten seconds, and the
timeout is the one given, if it exceeds the interval, or else three times the interval.

That is what the file alone comes to.  But the file comes to a timeout even if none is
given, and the environment is laid over that timeout as if somebody had asked for it.  So
an interval of the environment can be left with a timeout that was made for another
interval.  `keepalive_pair_decided` says when: `LeftOver` is the whole difference.
-/
import Foreman.Proofs.Config.Layers

namespace Foreman.Config

/-- An interval and the timeout for it, from those that are given, in seconds. -/
def keepalivePair (interval timeout : Option Nat) : Nat × Nat :=
  let secs := interval.getD 10
  (secs, (timeout.filter (secs < ·)).getD (3 * secs))

@[simp] theorem keepalivePair_fst (interval timeout : Option Nat) :
    (keepalivePair interval timeout).1 = interval.getD 10 := rfl

@[simp] theorem keepalivePair_none (interval : Option Nat) :
    (keepalivePair interval none).2 = 3 * interval.getD 10 := rfl

@[simp] theorem keepalivePair_some (interval : Option Nat) (timeout : Nat) :
    (keepalivePair interval (some timeout)).2 =
      if interval.getD 10 < timeout then timeout else 3 * interval.getD 10 := by
  by_cases h : interval.getD 10 < timeout <;> simp [keepalivePair, Option.filter_some, h]

/-- The interval that is given: the environment's, or else the file's. -/
def givenInterval (env : Environment) (f : File) : Option Nat :=
  (positive? env .keepaliveInterval).or (f.server.keepaliveInterval.filter (0 < ·))

/-- The timeout that is given: the environment's, or else the file's. -/
def givenTimeout (env : Environment) (f : File) : Option Nat :=
  (positive? env .keepaliveTimeout).or (f.server.keepaliveTimeout.filter (0 < ·))

/-- The timeout that the file came to by itself is left over: the environment gives an interval
only, which is not the file's and is exceeded by three times the file's, and the file gives no
timeout that exceeds its own interval. -/
structure LeftOver (env : Environment) (f : File) : Prop where
  interval : ∃ secs, positive? env .keepaliveInterval = some secs ∧ secs ≠ fileInterval f ∧
    secs < 3 * fileInterval f
  noTimeout : positive? env .keepaliveTimeout = none
  fileTimeout : ∀ secs, f.server.keepaliveTimeout = some secs → secs ≤ fileInterval f

theorem fileInterval_pos (f : File) : 0 < fileInterval f := positiveOr_pos (by decide) _

/-- A timeout is mended as one that is given is read. -/
theorem mended_timeout (s : ServerSettings) :
    (mended s).keepaliveTimeoutSecs =
      (keepalivePair (some s.keepaliveIntervalSecs) (some s.keepaliveTimeoutSecs)).2 := by
  rw [keepalivePair_some, Option.getD_some]
  by_cases h : s.keepaliveTimeoutSecs ≤ s.keepaliveIntervalSecs
  · rw [if_neg (Nat.not_lt.mpr h)]
    exact if_pos h
  · rw [if_pos (Nat.lt_of_not_le h)]
    exact if_neg h

/-- The file by itself comes to the pair that it means. -/
theorem fileConfig_timeout (f : File) (accounts : List Identity) :
    (fileConfig f accounts).server.keepaliveTimeoutSecs =
      (keepalivePair (some (fileInterval f)) f.server.keepaliveTimeout).2 := by
  have hpos := fileInterval_pos f
  show (mended (fileServer f.server)).keepaliveTimeoutSecs = _
  rw [mended_timeout]
  show (keepalivePair (some (fileInterval f))
    (some (positiveOr (3 * fileInterval f) f.server.keepaliveTimeout))).2 = _
  cases f.server.keepaliveTimeout with
  | none => simp [positiveOr]
  | some t =>
    rcases Nat.eq_zero_or_pos t with rfl | ht
    · simp [positiveOr, Option.filter_some]
    · simp [positiveOr, Option.filter_some, ht]

section

variable {env : Environment} {f : File} {accounts : List Identity}

theorem overridden_interval :
    (overridden env (fileConfig f accounts)).server.keepaliveIntervalSecs =
      (keepalivePair (givenInterval env f) (givenTimeout env f)).1 := by
  show (positive? env .keepaliveInterval).getD (fileInterval f) = _
  unfold fileInterval positiveOr
  rw [keepalivePair_fst, givenInterval]
  cases positive? env .keepaliveInterval <;> rfl

/-- The environment is laid over the timeout that the file came to. -/
theorem overridden_timeout :
    (overridden env (fileConfig f accounts)).server.keepaliveTimeoutSecs =
      (keepalivePair (givenInterval env f) (some ((positive? env .keepaliveTimeout).getD
        (keepalivePair (some (fileInterval f)) f.server.keepaliveTimeout).2))).2 := by
  show (mended (overrideServer env (fileConfig f accounts).server)).keepaliveTimeoutSecs = _
  have hinterval : (overrideServer env (fileConfig f accounts).server).keepaliveIntervalSecs =
      (givenInterval env f).getD 10 := overridden_interval
  have htimeout : (overrideServer env (fileConfig f accounts).server).keepaliveTimeoutSecs =
      (positive? env .keepaliveTimeout).getD
        (keepalivePair (some (fileInterval f)) f.server.keepaliveTimeout).2 := by
    rw [← fileConfig_timeout f accounts]
    rfl
  rw [mended_timeout, hinterval, htimeout, keepalivePair_some, keepalivePair_some, Option.getD_some]

end

/-! ### Timeouts that are left over -/

section

variable {env : Environment} {f : File}

theorem getD_givenInterval : (givenInterval env f).getD 10 =
    (positive? env .keepaliveInterval).getD (fileInterval f) := by
  unfold givenInterval fileInterval positiveOr
  cases positive? env .keepaliveInterval <;> rfl

/-- A timeout of the file that does not exceed its own interval is replaced, and one that does is
kept. -/
theorem fileTimeout_cases (f : File) :
    let own := (keepalivePair (some (fileInterval f)) f.server.keepaliveTimeout).2
    (own = 3 * fileInterval f ∧ ∀ t, f.server.keepaliveTimeout = some t → t ≤ fileInterval f) ∨
      ∃ t, f.server.keepaliveTimeout = some t ∧ fileInterval f < t ∧ own = t := by
  intro own
  cases hfile : f.server.keepaliveTimeout with
  | none =>
    refine .inl ⟨?_, by simp⟩
    show (keepalivePair _ f.server.keepaliveTimeout).2 = _
    rw [hfile]
    rfl
  | some t =>
    have hown : own = if fileInterval f < t then t else 3 * fileInterval f := by
      show (keepalivePair _ f.server.keepaliveTimeout).2 = _
      rw [hfile, keepalivePair_some]
      rfl
    by_cases ht : fileInterval f < t
    · exact .inr ⟨t, rfl, ht, hown.trans (if_pos ht)⟩
    · refine .inl ⟨hown.trans (if_neg ht), ?_⟩
      intro t' ht'
      rw [← Option.some.inj ht']
      exact Nat.le_of_not_lt ht

/-- Where the file gives a timeout that exceeds its interval, nothing is left over: it is the one
that is meant. -/
theorem givenTimeout_of_lt {t : Nat} (hnone : positive? env .keepaliveTimeout = none)
    (hfile : f.server.keepaliveTimeout = some t) (ht : fileInterval f < t) :
    givenTimeout env f = some t := by
  have hpos : 0 < t := by omega
  simp [givenTimeout, hnone, hfile, Option.filter_some, hpos]

/-- Where it does not, what is meant is no timeout, or one that three times the interval exceeds. -/
theorem meant_of_le (hnone : positive? env .keepaliveTimeout = none)
    (hfile : ∀ t, f.server.keepaliveTimeout = some t → t ≤ fileInterval f) :
    let secs := (givenInterval env f).getD 10
    (keepalivePair (givenInterval env f) (givenTimeout env f)).2 = 3 * secs ∨
      secs < (keepalivePair (givenInterval env f) (givenTimeout env f)).2 ∧
        (keepalivePair (givenInterval env f) (givenTimeout env f)).2 ≤ fileInterval f := by
  intro secs
  rw [givenTimeout, hnone, Option.none_or]
  cases hgiven : f.server.keepaliveTimeout.filter (0 < ·) with
  | none => exact .inl rfl
  | some t =>
    have ht := hfile t (Option.filter_eq_some_iff.mp hgiven).1
    rw [keepalivePair_some]
    by_cases hlt : secs < t
    · rw [if_pos hlt]
      exact .inr ⟨hlt, ht⟩
    · exact .inl (if_neg hlt)

end

/-- **The keep-alive pair is the one that is meant, unless a timeout of the file is left over.**
For every file that can be read and every environment with which it loads: the interval is the
one that is given, the environment's before the file's, or ten seconds.  The timeout is the one
that is given if it exceeds the interval, and else three times the interval, except if the
timeout that the file came to by itself is left over.  Then it is three times the interval of the
file, which is not what is meant. -/
theorem keepalive_pair_decided {newId : Nat → UserId} {path : String} {source : Source} {f : File}
    {env : Environment} {c : Config} {notices : List Notice}
    (hfile : source.file path = .ok f)
    (hload : load newId path source env = .ok (c, notices)) :
    let meant := keepalivePair (givenInterval env f) (givenTimeout env f)
    c.server.keepaliveIntervalSecs = meant.1 ∧
    (¬ LeftOver env f → c.server.keepaliveTimeoutSecs = meant.2) ∧
    (LeftOver env f → c.server.keepaliveTimeoutSecs = 3 * fileInterval f ∧
      c.server.keepaliveTimeoutSecs ≠ meant.2) := by
  intro meant
  obtain ⟨accounts, rfl⟩ : ∃ accounts, c = overridden env (fileConfig f accounts) := by
    have hcases := load_loading hfile newId env
    rw [hload] at hcases
    cases hcases with
    | @loaded accounts _ _ _ _ => exact ⟨accounts, rfl⟩
  have hpos := fileInterval_pos f
  have hinterval : (givenInterval env f).getD 10 =
      (positive? env .keepaliveInterval).getD (fileInterval f) := getD_givenInterval
  refine ⟨overridden_interval, ?_, ?_⟩
  · intro hnot
    rw [overridden_timeout]
    cases htimeout : positive? env .keepaliveTimeout with
    | some t => simp [meant, givenTimeout, htimeout]
    | none =>
      rw [Option.getD_none]
      rcases fileTimeout_cases f with ⟨hown, hle⟩ | ⟨t, ht, hlt, hown⟩
      · -- the file's timeout is three times its interval, and the interval is at least the file's
        have hkept : (givenInterval env f).getD 10 = fileInterval f ∨
            3 * fileInterval f ≤ (givenInterval env f).getD 10 := by
          rw [hinterval]
          cases hsecs : positive? env .keepaliveInterval with
          | none => exact .inl rfl
          | some secs =>
            by_cases hsame : secs = fileInterval f
            · exact .inl hsame
            · exact .inr (Nat.le_of_not_lt fun hlt =>
                hnot ⟨⟨secs, hsecs, hsame, hlt⟩, htimeout, hle⟩)
        have hmeant : meant.2 = 3 * (givenInterval env f).getD 10 ∨
            (givenInterval env f).getD 10 < meant.2 ∧ meant.2 ≤ fileInterval f :=
          meant_of_le htimeout hle
        rw [hown, keepalivePair_some]
        split <;> omega
      · show _ = (keepalivePair (givenInterval env f) (givenTimeout env f)).2
        rw [givenTimeout_of_lt htimeout ht hlt, hown]
  · intro hleft
    obtain ⟨secs, hsecs, hne, hlt⟩ := hleft.interval
    have hown : (keepalivePair (some (fileInterval f)) f.server.keepaliveTimeout).2 =
        3 * fileInterval f := by
      rcases fileTimeout_cases f with ⟨hown, -⟩ | ⟨t, ht, hexceeds, -⟩
      · exact hown
      · have hle := hleft.fileTimeout t ht
        omega
    have hmeant : meant.2 = 3 * (givenInterval env f).getD 10 ∨
        (givenInterval env f).getD 10 < meant.2 ∧ meant.2 ≤ fileInterval f :=
      meant_of_le hleft.noTimeout hleft.fileTimeout
    rw [hsecs, Option.getD_some] at hinterval
    rw [overridden_timeout, hleft.noTimeout, Option.getD_none, hown, keepalivePair_some, hinterval,
      if_pos hlt]
    rw [hinterval] at hmeant
    exact ⟨rfl, by omega⟩

/-- With no file and an interval of the environment, the timeout is that of the interval which
nobody gave. -/
theorem keepalive_pair_decided_variable :
    let env : Environment := .only .keepaliveInterval "5"
    ∃ c notices, load (fun _ => ⟨0⟩) "config.toml" .missing env = .ok (c, notices) ∧
      LeftOver env {} ∧ c.server.keepaliveIntervalSecs = 5 ∧ c.server.keepaliveTimeoutSecs = 30 := by
  intro env
  have hvariable : positive? env .keepaliveInterval = some 5 := by decide +kernel
  have hleft : LeftOver env {} := ⟨⟨5, hvariable, by decide, by decide⟩, by decide +kernel, by simp⟩
  have hok : (load (fun _ => ⟨0⟩) "config.toml" .missing env).isOk = true := by decide +kernel
  cases hload : load (fun _ => ⟨0⟩) "config.toml" .missing env with
  | error e =>
    rw [hload] at hok
    cases hok
  | ok loaded =>
    obtain ⟨c, notices⟩ := loaded
    obtain ⟨hinterval, -, htimeout⟩ := keepalive_pair_decided rfl hload
    refine ⟨c, notices, rfl, hleft, ?_, (htimeout hleft).1⟩
    rw [hinterval, keepalivePair_fst, getD_givenInterval, hvariable]
    rfl

/-- The pair of what was loaded. -/
def loadedPair (loaded : Except LoadError (Config × List Notice)) : Option (Nat × Nat) :=
  loaded.toOption.map fun l => (l.1.server.keepaliveIntervalSecs, l.1.server.keepaliveTimeoutSecs)

/-- An interval of five seconds has a timeout of fifteen if the file gives it, and of thirty if
the environment does. -/
theorem interval_variable_differs_from_file :
    let inFile : File := { server := { keepaliveInterval := some 5 } }
    let inVariable : Environment := .only .keepaliveInterval "5"
    givenInterval (fun _ => none) inFile = givenInterval inVariable {} ∧
    givenTimeout (fun _ => none) inFile = givenTimeout inVariable {} ∧
    loadedPair (ofSettings (fun _ => ⟨0⟩) inFile fun _ => none) = some (5, 15) ∧
    loadedPair (ofSettings (fun _ => ⟨0⟩) {} inVariable) = some (5, 30) ∧
    keepalivePair (givenInterval inVariable {}) (givenTimeout inVariable {}) = (5, 15) := by
  decide +kernel

end Foreman.Config
