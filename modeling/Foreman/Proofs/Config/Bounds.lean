/-
What every loaded configuration keeps to.

The server relies on bounds that nobody checks again: a timeout above the interval, room in
its queues, tokens with their mark.  `Sane` is what the server's own settings keep to in
either layer, whatever the settings are that it is made of: a number that is not positive
and a text that is blank are passed over for one that is sane.  Only the keep-alive pair
is not sane by itself, and mending it comes last in both layers.

`loading_decided` adds the ways in which there is no configuration.
-/
import Foreman.Proofs.Config.Binding
import Foreman.Proofs.Config.Layers

namespace Foreman.Config

/-! ### Single settings -/

theorem positive?_getD_pos {default : Nat} (h : 0 < default) (env : Environment) (v : Variable) :
    0 < (positive? env v).getD default := positiveOr_pos h (number? env v)

/-- A text that is present is tidy. -/
def TidyIfAny (o : Option String) : Prop := ∀ s, o = some s → Tidy s

theorem tidyIfAny_nonEmpty (o : Option String) : TidyIfAny (nonEmpty o) :=
  fun _ => tidy_of_nonEmpty

theorem TidyIfAny.or {o : Option String} (h : TidyIfAny o) (env : Environment) (v : Variable) :
    TidyIfAny ((textOf? env v).or o) := by
  intro s hs
  rcases Option.or_eq_some_iff.mp hs with henv | ⟨-, hfile⟩
  · exact tidy_of_nonEmpty henv
  · exact h s hfile

theorem marked_of_mem_filterMap {raws : List String} {t : String}
    (h : t ∈ raws.filterMap normalizeServiceToken) : Marked t := by
  obtain ⟨raw, -, hnormal⟩ := List.mem_filterMap.mp h
  exact (normal_of_normalizeServiceToken hnormal).2

/-! ### The server's settings -/

/-- What the server's settings keep to, but for the order of the keep-alive pair. -/
structure Sane (s : ServerSettings) : Prop where
  interval : 0 < s.keepaliveIntervalSecs
  outbound : 0 < s.outboundCapacity
  frame : 0 < s.maxFrameBytes
  tokens : ∀ t ∈ s.serviceTokens, Marked t
  bind : TidyIfAny s.bind
  metricsBind : TidyIfAny s.metricsBind
  healthBind : TidyIfAny s.healthBind
  secret : TidyIfAny (s.secret.map Secret.expose)

theorem expose_map_mk (o : Option String) : (o.map Secret.mk).map Secret.expose = o := by
  cases o <;> rfl

theorem sane_fileServer (f : FileServer) : Sane (fileServer f) where
  interval := positiveOr_pos (by decide) _
  outbound := positiveOr_pos (by decide) _
  frame := positiveOr_pos (by decide) _
  tokens _ h := marked_of_mem_filterMap h
  bind := tidyIfAny_nonEmpty f.bind
  metricsBind := tidyIfAny_nonEmpty f.metricsBind
  healthBind := tidyIfAny_nonEmpty f.healthBind
  secret := by
    show TidyIfAny (((nonEmpty f.secret).map Secret.mk).map Secret.expose)
    rw [expose_map_mk]
    exact tidyIfAny_nonEmpty f.secret

namespace Sane

variable {s : ServerSettings}

theorem tokensOverridden (h : Sane s) (env : Environment) :
    ∀ t ∈ (overrideServer env s).serviceTokens, Marked t := by
  intro t ht
  change t ∈ ((textOf? env .serviceTokens).map tokensOf).getD s.serviceTokens at ht
  cases htext : textOf? env .serviceTokens with
  | none =>
    rw [htext] at ht
    exact h.tokens t ht
  | some list =>
    rw [htext] at ht
    exact marked_of_mem_filterMap ht

theorem secretOverridden (h : Sane s) (env : Environment) :
    TidyIfAny ((overrideServer env s).secret.map Secret.expose) := by
  have hor : (overrideServer env s).secret.map Secret.expose =
      (textOf? env .secret).or (s.secret.map Secret.expose) := by
    show (((textOf? env .secret).map Secret.mk).or s.secret).map Secret.expose = _
    cases textOf? env .secret <;> rfl
  rw [hor]
  exact h.secret.or env .secret

/-- The environment leaves the server's settings sane. -/
theorem overrideServer (h : Sane s) (env : Environment) : Sane (overrideServer env s) where
  interval := positive?_getD_pos h.interval env _
  outbound := positive?_getD_pos h.outbound env _
  frame := positive?_getD_pos h.frame env _
  tokens := h.tokensOverridden env
  bind := h.bind.or env .bind
  metricsBind := h.metricsBind.or env .metricsBind
  healthBind := h.healthBind.or env .healthBind
  secret := h.secretOverridden env

theorem mended (h : Sane s) : Sane (mended s) where
  interval := h.interval
  outbound := h.outbound
  frame := h.frame
  tokens := h.tokens
  bind := h.bind
  metricsBind := h.metricsBind
  healthBind := h.healthBind
  secret := h.secret

end Sane

/-- A pair that is mended is in order, if its interval is positive. -/
theorem lt_mended {s : ServerSettings} (h : 0 < s.keepaliveIntervalSecs) :
    (mended s).keepaliveIntervalSecs < (mended s).keepaliveTimeoutSecs := by
  show s.keepaliveIntervalSecs < if s.keepaliveTimeoutSecs ≤ s.keepaliveIntervalSecs then
    3 * s.keepaliveIntervalSecs else s.keepaliveTimeoutSecs
  split <;> omega

/-! ### Configurations -/

/-- What a configuration keeps to. -/
structure Sound (c : Config) : Prop where
  server : Sane c.server
  pair : c.server.keepaliveIntervalSecs < c.server.keepaliveTimeoutSecs
  queue : 0 < c.pipeline.queueCapacity
  boundTokens : ∀ b ∈ c.serviceTokenUsers, Marked b.1
  databaseUrl : TidyIfAny c.persistence.databaseUrl

theorem sound_fileConfig (f : File) (accounts : List Identity) : Sound (fileConfig f accounts) where
  server := (sane_fileServer f.server).mended
  pair := lt_mended (sane_fileServer f.server).interval
  queue := positiveOr_pos (by decide) _
  boundTokens b hb := by
    obtain ⟨raw, -, hnormal⟩ := exists_of_mem_normalBindings hb
    exact (normal_of_normalizeServiceToken hnormal).2
  databaseUrl := tidyIfAny_nonEmpty f.persistence.databaseUrl

/-- **The environment leaves a configuration sound.** -/
theorem Sound.overridden {c : Config} (h : Sound c) (env : Environment) :
    Sound (overridden env c) where
  server := (h.server.overrideServer env).mended
  pair := lt_mended (h.server.overrideServer env).interval
  queue := positive?_getD_pos h.queue env _
  boundTokens := h.boundTokens
  databaseUrl := h.databaseUrl.or env .databaseUrl

/-! ### Loading -/

section

variable {newId : Nat → UserId} {users : List FileUser}

theorem readable_of_identitiesOf {accounts : List Identity}
    (h : identitiesOf newId users = .ok accounts) : ¬ ∃ u ∈ users, u.Unreadable := by
  rcases identitiesOf_spec newId users with ⟨-, -, hreadable⟩ | ⟨e, he, -⟩
  · rintro ⟨u, hu, hbad⟩
    exact hreadable u hu hbad
  · rw [h] at he
    cases he

theorem unreadable_of_identitiesOf {e : LoadError} (h : identitiesOf newId users = .error e) :
    e ≠ .intervalTooLong ∧ ∃ u ∈ users, u.Unreadable := by
  rcases identitiesOf_spec newId users with ⟨accounts, haccounts, -⟩ | ⟨e', he', hne, hbad⟩
  · rw [h] at haccounts
    cases haccounts
  · rw [h] at he'
    rw [Except.error.inj he']
    exact ⟨hne, hbad⟩

end

/-- The server's settings with those of the environment laid over what the file came to. -/
def layeredServer (f : File) (env : Environment) : ServerSettings :=
  overrideServer env (mended (fileServer f.server))

/-- The keep-alive pair stops loading: three times the file's interval takes more than sixty-four
bits; or every account of the file can be read, and the environment leaves a pair that has to be
mended and cannot be. -/
def PairStops (f : File) (env : Environment) : Prop :=
  TooLong (fileInterval f) ∨
    (∀ u ∈ f.users, ¬ u.Unreadable) ∧ Unmendable (layeredServer f env)

/--
**What loading comes to.**  Whatever is absent, blank, zero, unreadable or out of range in
a file with settings and in the environment,

  * an account is refused exactly if one of the file cannot be read, and the keep-alive pair
    does not stop loading before;
  * loading stops for the keep-alive pair exactly if three times the file's interval takes more
    than sixty-four bits, whether a timeout is given or not, or if all accounts can be read, the
    timeout does not exceed the interval after the environment was laid over the file, and three
    times this interval takes more than sixty-four bits;
  * and otherwise there is a configuration, which is sound.

An account that cannot be read is refused before the environment is looked at, so the
environment's pair stops nothing then; `account_refused_before_pair` is such a file.
-/
theorem loading_decided {newId : Nat → UserId} {path : String} {source : Source} {f : File}
    (hfile : source.file path = .ok f) (env : Environment) :
    let result := load newId path source env
    ((∃ e, result = .error e ∧ e ≠ .intervalTooLong) ↔
      ¬ PairStops f env ∧ ∃ u ∈ f.users, u.Unreadable) ∧
    (result = .error .intervalTooLong ↔ PairStops f env) ∧
    (¬ PairStops f env → (∀ u ∈ f.users, ¬ u.Unreadable) →
      ∃ c notices, result = .ok (c, notices) ∧ Sound c) := by
  intro result
  have hloading : Loading newId f env result := load_loading hfile newId env
  clear_value result
  cases hloading with
  | interval h =>
    have hstops : PairStops f env := .inl h
    simp [hstops]
  | account h he =>
    obtain ⟨hne, u, hu, hbad⟩ := unreadable_of_identitiesOf he
    have hgoes : ¬ PairStops f env := by
      rintro (hlong | ⟨hreadable, -⟩)
      · exact h hlong
      · exact hreadable u hu hbad
    refine ⟨?_, ?_, ?_⟩
    · exact iff_of_true ⟨_, rfl, hne⟩ ⟨hgoes, u, hu, hbad⟩
    · exact iff_of_false (by simpa using hne) hgoes
    · exact fun _ hreadable => absurd hbad (hreadable u hu)
  | pair h haccounts hpair =>
    have hreadable := readable_of_identitiesOf haccounts
    have hstops : PairStops f env := .inr ⟨fun u hu hbad => hreadable ⟨u, hu, hbad⟩, hpair⟩
    simp [hstops]
  | loaded h haccounts hpair =>
    have hgoes : ¬ PairStops f env := by
      rintro (hlong | ⟨-, hunmendable⟩)
      · exact h hlong
      · exact hpair hunmendable
    have hreadable := readable_of_identitiesOf haccounts
    refine ⟨iff_of_false (by simp) (fun hbad => hreadable hbad.2), iff_of_false (by simp) hgoes, ?_⟩
    exact fun _ _ => ⟨_, _, rfl, (sound_fileConfig f _).overridden env⟩

/-- Without a file, an interval of the environment can be too long for a timeout. -/
theorem loading_decided_variable :
    let env : Environment := .only .keepaliveInterval "6148914691236517206"
    Source.missing.file "" = .ok {} ∧
      load (fun _ => ⟨0⟩) "" .missing env = .error .intervalTooLong := by
  intro env
  have hreadable : ∀ u ∈ ({} : File).users, ¬ u.Unreadable := by simp
  have hunmendable : Unmendable (layeredServer {} env) := by
    unfold Unmendable TooLong
    decide +kernel
  exact ⟨rfl, (loading_decided rfl env).2.1.mpr (.inr ⟨hreadable, hunmendable⟩)⟩

/-- A file with an account whose id cannot be read. -/
def unreadableDocument : String :=
  "[[users]]
id = \"?\"
email = \"\"
user_type = \"provider\""

/-- Its bytes. -/
def unreadableSource : Source :=
  .bytes (unreadableDocument.toList.map fun c => UInt8.ofNat c.toNat)

/-- What it sets. -/
def unreadableFile : File where
  users := [⟨some "?", "", "provider", false, false⟩]

set_option maxRecDepth 8000 in
theorem file_unreadableSource (path : String) : unreadableSource.file path = .ok unreadableFile := by
  have htext : Text.textOfUnits? (Text.unitsOfBytes
      (unreadableDocument.toList.map fun c => UInt8.ofNat c.toNat)) = some unreadableDocument := by
    decide +kernel
  have htokens : Toml.tokens? unreadableDocument = some [
      .openBracket, .openBracket, .bare "users".toList, .closeBracket, .closeBracket, .newline,
      .bare "id".toList, .blank ' ', .equals, .blank ' ', .text false "?", .newline,
      .bare "email".toList, .blank ' ', .equals, .blank ' ', .text false "", .newline,
      .bare "user_type".toList, .blank ' ', .equals, .blank ' ', .text false "provider"] := by
    cbv
  have hfile : File.parse? unreadableDocument = some unreadableFile := by
    rw [File.parse?, Toml.parse, htokens, Option.bind_eq_bind, Option.bind_some]
    decide +kernel
  simp only [unreadableSource, Source.file, htext, hfile]

/-- The environment's pair has to be mended and cannot be, and yet it is the account that is
refused. -/
theorem account_refused_before_pair :
    let env : Environment := .only .keepaliveInterval "6148914691236517206"
    unreadableSource.file "" = .ok unreadableFile ∧
      Unmendable (layeredServer unreadableFile env) ∧
      load (fun _ => ⟨0⟩) "" unreadableSource env = .error (.userId "" .invalidFormat) := by
  intro env
  have hunmendable : Unmendable (layeredServer unreadableFile env) := by
    unfold Unmendable TooLong
    decide +kernel
  have hfits : ¬ TooLong (fileInterval unreadableFile) := by
    unfold TooLong
    decide
  have haccount : identitiesOf (fun _ => ⟨0⟩) unreadableFile.users =
      .error (.userId "" .invalidFormat) := by
    decide +kernel
  refine ⟨file_unreadableSource "", hunmendable, ?_⟩
  rw [load_of_file (file_unreadableSource ""), ofSettings, ofFile_of_error hfits haccount]
  rfl

end Foreman.Config
