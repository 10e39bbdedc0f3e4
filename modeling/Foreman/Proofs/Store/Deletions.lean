/-
What a deletion finds.

A token that has expired is answered to nobody, but the store may hold it still.  A table holds
it until it is deleted or another one is set.  Memory drops it when it is asked for and found
expired, so there it matters whether anybody asked.  A deletion says whether there was anything
to delete, and a token that was held only is as good as a live one for that.

`heldAfter` is what a store holds for an email, told from the calls alone: the token that was set
last, unless it was deleted since, or dropped.  `Tracks` says that this is what is in the store,
and is kept call by call.  Nothing is assumed of time for that; it has to move forward only
for answers to be the same whoever asked in between.
-/
import Foreman.Proofs.Store.Resets

namespace Foreman

/-! ### Calls since a change -/

/-- Whether a call asks for the token of an email. -/
def ResetCall.asks (email : String) : ResetCall → Bool
  | set _ _ => false
  | get e => normalizeEmail e == normalizeEmail email
  | delete _ => false

/-- Whether a call only asks for a token, whosever it is. -/
def ResetCall.reads : ResetCall → Bool
  | set _ _ => false
  | get _ => true
  | delete _ => false

/-- The calls since the token of an email was set or deleted, the last one first. -/
def sinceChange (email : String) (calls : List (Nat × ResetCall)) : List (Nat × ResetCall) :=
  calls.reverse.takeWhile fun x => !x.2.changes email

theorem sinceChange_concat (email : String) (calls : List (Nat × ResetCall))
    (x : Nat × ResetCall) : sinceChange email (calls ++ [x]) =
      if x.2.changes email then [] else x :: sinceChange email calls := by
  rw [sinceChange, List.reverse_append, List.reverse_singleton, List.singleton_append,
    List.takeWhile_cons]
  cases x.2.changes email <;> rfl

/-- Which token was set last is a matter of the calls that change tokens. -/
theorem latestSet_filter (email : String) (calls : List (Nat × ResetCall)) :
    latestSet email (calls.filter fun x => !x.2.reads) = latestSet email calls := by
  rw [latestSet, latestSet, List.filter_filter]
  congr 2
  refine List.filter_congr fun x _ => ?_
  cases x.2 <;> simp [ResetCall.changes, ResetCall.reads]

namespace Store

/-! ### Lifetimes by the clock of a store -/

/-- What a store reads off the clock: the instant in memory, and the second in a table. -/
def reading (now : Clock) : Store → Nat
  | memory _ => now.monoNanos
  | sql _ => now.unixSeconds

/-- The reading at which a token expires that is set at an instant. -/
def expiry (since : Clock) : Store → Nat
  | memory m => since.monoNanos + m.resetLifetimeMs * 1000000
  | sql _ => since.unixSeconds + resetLifetimeSeconds

/-- Whether a token that was set at one instant is answered at another. -/
def honours (since now : Clock) (s : Store) : Bool := decide (s.reading now < s.expiry since)

/-- Whether a token stays in the store when it is asked for and has expired. -/
def keepsExpired : Store → Bool
  | memory _ => false
  | sql _ => true

/-- What a store reads off the clock grows with time. -/
theorem reading_mono (s : Store) (start : Clock) {t t' : Nat} (h : t ≤ t') :
    s.reading (start.pass t) ≤ s.reading (start.pass t') := by
  cases s with
  | memory m => exact Nat.add_le_add_left h _
  | sql db =>
    have hwall : (start.wallNanos + t).toNat ≤ (start.wallNanos + t').toNat :=
      Int.toNat_le_toNat (by omega)
    exact Nat.div_le_div_right hwall

theorem honours_of_le {s : Store} {start since : Clock} {t t' : Nat} (h : t ≤ t')
    (hlater : s.honours since (start.pass t') = true) : s.honours since (start.pass t) = true :=
  decide_eq_true (Nat.lt_of_le_of_lt (s.reading_mono start h) (of_decide_eq_true hlater))

/-- The rules of a store are not changed by calls. -/
structure SameRules (s s' : Store) : Prop where
  reading : ∀ now, s'.reading now = s.reading now
  expiry : ∀ since, s'.expiry since = s.expiry since
  keepsExpired : s'.keepsExpired = s.keepsExpired

theorem SameRules.honours {s s' : Store} (h : SameRules s s') (since now : Clock) :
    s'.honours since now = s.honours since now := by
  rw [Store.honours, Store.honours, h.reading, h.expiry]

theorem SameRules.trans {s₁ s₂ s₃ : Store} (h₁ : SameRules s₁ s₂) (h₂ : SameRules s₂ s₃) :
    SameRules s₁ s₃ :=
  ⟨fun now => (h₂.reading now).trans (h₁.reading now),
    fun since => (h₂.expiry since).trans (h₁.expiry since),
    h₂.keepsExpired.trans h₁.keepsExpired⟩

theorem sameRules_run (clock : Clock) (c : ResetCall) (s : Store) :
    SameRules s (c.run clock s) := by
  cases s with
  | memory m =>
    cases c with
    | set e token => exact ⟨fun _ => rfl, fun _ => rfl, rfl⟩
    | get e =>
      have hlife : (m.getReset clock e).2.resetLifetimeMs = m.resetLifetimeMs := by
        unfold MemoryStore.getReset
        split <;> rfl
      refine ⟨fun _ => rfl, fun since => ?_, rfl⟩
      show since.monoNanos + (m.getReset clock e).2.resetLifetimeMs * 1000000 = _
      rw [hlife]
      rfl
    | delete e => exact ⟨fun _ => rfl, fun _ => rfl, rfl⟩
  | sql db => cases c <;> exact ⟨fun _ => rfl, fun _ => rfl, rfl⟩

/-! ### What is held -/

/-- The tokens that a store holds for an email, each with the reading at which it expires. -/
def held (email : String) : Store → List (String × Nat)
  | memory m => (m.resets.filter (·.email == normalizeEmail email)).map fun e =>
      (e.token, e.expiresAtNanos)
  | sql db => ((db.resets.getD []).filter (·.email == normalizeEmail email)).map fun row =>
      (row.token, row.expiresAt)

/-- No call is refused. -/
def Answers : Store → Prop
  | memory _ => True
  | sql db => db.Accepts ∧ ∃ rows, db.resets = some rows

theorem filter_ne_filter {α β : Type} [DecidableEq β] (key : α → β) (k k' : β) (l : List α) :
    (l.filter (key · != k)).filter (key · == k') = if k = k' then [] else l.filter (key · == k') := by
  rw [List.filter_filter]
  by_cases h : k = k'
  · rw [if_pos h, List.filter_eq_nil_iff]
    intro a _
    simp [h]
  · rw [if_neg h]
    refine List.filter_congr fun a _ => ?_
    by_cases ha : key a = k'
    · simp [ha, Ne.symm h]
    · simp [ha]

/-! ### One call -/

/-- Some token that a store holds for an email is answered at an instant. -/
def holdsLive (now : Clock) (email : String) (s : Store) : Bool :=
  (s.held email).head?.any fun x => decide (s.reading now < x.2)

/-- What a store holds for an email once a call was made at an instant. -/
def heldOnce (clock : Clock) (c : ResetCall) (email : String) (s : Store) : List (String × Nat) :=
  if c.changes email then (c.token?.map fun token => (token, s.expiry clock)).toList
  else if c.asks email && !s.keepsExpired && !s.holdsLive clock email then []
  else s.held email

section

variable (clock : Clock) (e token email : String) (s : Store)

theorem heldOnce_set : s.heldOnce clock (.set e token) email =
    if normalizeEmail e = normalizeEmail email then [(token, s.expiry clock)]
    else s.held email := by
  by_cases h : normalizeEmail e = normalizeEmail email
  · simp [heldOnce, ResetCall.changes, ResetCall.token?, h]
  · simp [heldOnce, ResetCall.changes, ResetCall.asks, h]

theorem heldOnce_get : s.heldOnce clock (.get e) email =
    if normalizeEmail e = normalizeEmail email ∧ s.keepsExpired = false ∧
      s.holdsLive clock email = false then [] else s.held email := by
  simp [heldOnce, ResetCall.changes, ResetCall.asks, and_assoc]

theorem heldOnce_delete : s.heldOnce clock (.delete e) email =
    if normalizeEmail e = normalizeEmail email then [] else s.held email := by
  by_cases h : normalizeEmail e = normalizeEmail email
  · simp [heldOnce, ResetCall.changes, ResetCall.token?, h]
  · simp [heldOnce, ResetCall.changes, ResetCall.asks, h]

end

section Memory

variable (m : MemoryStore)

theorem holdsLive_memory (now : Clock) (email : String) :
    (memory m).holdsLive now email = (m.liveReset now email).isSome := by
  rw [holdsLive, held, List.head?_map, List.head?_filter, MemoryStore.liveReset,
    MemoryStore.resetEntry, Option.isSome_map]
  cases m.resets.find? (·.email == normalizeEmail email) with
  | none => rfl
  | some entry =>
    rw [Option.filter_some, Option.map_some, Option.any_some, reading]
    split
    · rename_i h
      rw [h]
      rfl
    · rename_i h
      rw [Bool.eq_false_of_not_eq_true h]
      rfl

theorem held_dropReset (e email : String) : (memory (m.dropReset e)).held email =
    if normalizeEmail e = normalizeEmail email then [] else (memory m).held email := by
  rw [held, MemoryStore.dropReset, filter_ne_filter]
  split
  · rfl
  · rfl

theorem held_setReset (clock : Clock) (e token email : String) :
    (memory (m.setReset clock e token)).held email =
      if normalizeEmail e = normalizeEmail email then [(token, (memory m).expiry clock)]
      else (memory m).held email := by
  have hdropped := held_dropReset m e email
  rw [held] at hdropped ⊢
  rw [MemoryStore.setReset, List.filter_cons]
  by_cases h : normalizeEmail e = normalizeEmail email
  · rw [if_pos h] at hdropped ⊢
    rw [if_pos (beq_iff_eq.mpr h), List.map_cons, hdropped]
    rfl
  · rw [if_neg h] at hdropped ⊢
    rw [if_neg (by simpa using h), hdropped]

theorem held_getReset (clock : Clock) (e email : String) :
    (memory (m.getReset clock e).2).held email =
      if normalizeEmail e = normalizeEmail email ∧ m.liveReset clock email = none then []
      else (memory m).held email := by
  have hsame (h : normalizeEmail e = normalizeEmail email) :
      m.liveReset clock e = m.liveReset clock email := by
    rw [MemoryStore.liveReset, MemoryStore.liveReset, MemoryStore.resetEntry,
      MemoryStore.resetEntry, h]
  cases hlive : m.liveReset clock e with
  | some token =>
    rw [MemoryStore.getReset, hlive, if_neg]
    rintro ⟨h, hnone⟩
    rw [← hsame h, hlive] at hnone
    cases hnone
  | none =>
    rw [MemoryStore.getReset, hlive]
    show (memory (m.dropReset e)).held email = _
    rw [held_dropReset]
    by_cases h : normalizeEmail e = normalizeEmail email
    · rw [if_pos h, if_pos ⟨h, (hsame h).symm.trans hlive⟩]
    · rw [if_neg h, if_neg fun hand => h hand.1]

theorem held_run_memory (clock : Clock) (c : ResetCall) (email : String) :
    (c.run clock (memory m)).held email = (memory m).heldOnce clock c email := by
  cases c with
  | set e token =>
    rw [heldOnce_set]
    exact held_setReset m clock e token email
  | get e =>
    rw [heldOnce_get, holdsLive_memory]
    refine (held_getReset m clock e email).trans ?_
    simp [keepsExpired]
  | delete e =>
    rw [heldOnce_delete]
    exact held_dropReset m e email

end Memory

section Table

variable {db : Database} {rows : List ResetRow}

theorem held_rows (hrows : db.resets = some rows) (email : String) : (sql db).held email =
    (rows.filter (·.email == normalizeEmail email)).map fun row => (row.token, row.expiresAt) := by
  rw [held, hrows, Option.getD_some]

theorem held_run_sql (ok : (sql db).Answers) (clock : Clock) (c : ResetCall) (email : String) :
    (c.run clock (sql db)).Answers ∧
      (c.run clock (sql db)).held email = (sql db).heldOnce clock c email := by
  obtain ⟨haccepts, rows, hrows⟩ := ok
  have hsent : db.sent.Accepts := Database.accepts_drop haccepts
  cases c with
  | set e token =>
    have hrun : (ResetCall.set e token).run clock (sql db) = sql { db.sent.sent with
        resets := some (rows.filter (·.email != normalizeEmail e) ++
          [⟨normalizeEmail e, token, clock.unixSeconds + resetLifetimeSeconds⟩]) } := by
      show sql (db.setReset clock e token).2 = _
      rw [setReset_of_accepts haccepts hrows]
    rw [hrun]
    refine ⟨⟨Database.accepts_drop hsent, _, rfl⟩, ?_⟩
    rw [held_rows rfl, List.filter_append, filter_ne_filter, heldOnce_set, held_rows hrows]
    by_cases h : normalizeEmail e = normalizeEmail email
    · simp [h, expiry]
    · simp [h]
  | get e =>
    have hrun : (ResetCall.get e).run clock (sql db) = sql db.sent := by
      show sql (db.getReset clock e).2 = _
      rw [getReset_of_accepts haccepts hrows]
    rw [hrun]
    refine ⟨⟨hsent, rows, hrows⟩, ?_⟩
    rw [heldOnce_get, if_neg fun h => Bool.noConfusion h.2.1]
    rfl
  | delete e =>
    have hrun : (ResetCall.delete e).run clock (sql db) =
        sql { db.sent with resets := some (rows.filter (·.email != normalizeEmail e)) } := by
      show sql (db.deleteReset e).2 = _
      rw [deleteReset_of_accepts haccepts hrows]
    rw [hrun]
    refine ⟨⟨hsent, _, rfl⟩, ?_⟩
    rw [held_rows rfl, filter_ne_filter, heldOnce_delete, held_rows hrows]
    split <;> rfl

end Table

theorem held_run {s : Store} (ok : s.Answers) (clock : Clock) (c : ResetCall) (email : String) :
    (c.run clock s).Answers ∧ (c.run clock s).held email = s.heldOnce clock c email := by
  cases s with
  | memory m => cases c <;> exact ⟨trivial, held_run_memory m clock _ email⟩
  | sql db => exact held_run_sql ok clock c email

/-! ### Answers -/

/-- A deletion says whether anything was held. -/
theorem deleteReset_eq {s : Store} (ok : s.Answers) (email : String) :
    (s.deleteReset email).1 = .ok !(s.held email).isEmpty := by
  cases s with
  | memory m =>
    show Except.ok (m.resetEntry email).isSome = _
    rw [held, List.isEmpty_map, MemoryStore.resetEntry, ← List.head?_filter]
    cases m.resets.filter (·.email == normalizeEmail email) <;> rfl
  | sql db =>
    obtain ⟨haccepts, rows, hrows⟩ := ok
    show (db.deleteReset email).1 = _
    rw [deleteReset_of_accepts haccepts hrows, held_rows hrows, List.isEmpty_map]
    refine congrArg Except.ok (Bool.eq_iff_iff.mpr ?_)
    simp

/-- Who asks is answered with what is held, until it expires. -/
theorem getReset_of_held {s : Store} (ok : s.Answers) {email : String}
    {one : Option (String × Nat)} (h : s.held email = one.toList) (now : Clock) :
    (s.getReset now email).1 =
      .ok ((one.filter fun x => decide (s.reading now < x.2)).map (·.1)) := by
  cases s with
  | memory m =>
    have hentry : (m.resetEntry email).map (fun e => (e.token, e.expiresAtNanos)) = one := by
      rw [MemoryStore.resetEntry, ← List.head?_filter, ← List.head?_map]
      exact (congrArg List.head? h).trans Option.head?_toList
    show Except.ok (m.getReset now email).1 = _
    rw [MemoryStore.getReset_fst, MemoryStore.liveReset, ← hentry, Option.filter_map,
      Option.map_map]
    rfl
  | sql db =>
    obtain ⟨haccepts, rows, hrows⟩ := ok
    rw [held_rows hrows] at h
    show (db.getReset now email).1 = _
    have hfind : (one.filter fun x => decide (now.unixSeconds < x.2)).map (·.1) =
        ((rows.find? fun row => row.email == normalizeEmail email &&
          decide (now.unixSeconds < row.expiresAt)).map (·.token)) := by
      have hone (p : String × Nat → Bool) : one.filter p = one.toList.find? p := by
        cases one with
        | none => rfl
        | some x => cases hp : p x <;> simp [hp]
      rw [hone, ← h, List.find?_map, List.find?_filter, Option.map_map]
      simp only [Function.comp_def, Bool.decide_and, Bool.decide_eq_true]
    rw [getReset_of_accepts haccepts hrows, live, hrows, Option.getD_some]
    exact congrArg Except.ok hfind.symm

/-! ### Runs of calls -/

/-- What a store holds for an email after some calls, and when it was set: the token that was set
last, unless it was deleted since, or asked for once it had expired by a store that drops it. -/
def heldAfter (start : Clock) (calls : List (Nat × ResetCall)) (email : String) (s : Store) :
    Option (Nat × String) :=
  (latestSet email calls).filter fun set => s.keepsExpired ||
    (sinceChange email calls).all fun x =>
      !x.2.asks email || s.honours (start.pass set.1) (start.pass x.1)

theorem heldAfter_concat (start : Clock) (calls : List (Nat × ResetCall)) (t : Nat)
    (c : ResetCall) (email : String) (s : Store) :
    s.heldAfter start (calls ++ [(t, c)]) email =
      if c.changes email then c.token?.map (t, ·)
      else if c.asks email && !s.keepsExpired then
        (s.heldAfter start calls email).filter fun set =>
          s.honours (start.pass set.1) (start.pass t)
      else s.heldAfter start calls email := by
  rw [heldAfter, latestSet_concat, sinceChange_concat]
  by_cases hchanges : c.changes email = true
  · rw [if_pos hchanges, if_pos hchanges, if_pos hchanges]
    cases c.token? with
    | none => rfl
    | some token => simp
  · rw [if_neg hchanges, if_neg hchanges, if_neg hchanges, heldAfter]
    by_cases hdrops : (c.asks email && !s.keepsExpired) = true
    · rw [if_pos hdrops, Option.filter_filter]
      rw [Bool.and_eq_true, Bool.not_eq_true'] at hdrops
      simp [hdrops.1, hdrops.2, Bool.and_comm]
    · rw [if_neg hdrops]
      cases hasks : c.asks email with
      | false => simp [hasks]
      | true =>
        have hkeeps : s.keepsExpired = true := by simpa [hasks] using hdrops
        simp [hkeeps]

/-- The store holds what the calls say that it holds. -/
structure Tracks (start : Clock) (calls : List (Nat × ResetCall)) (s : Store) : Prop where
  answers : s.Answers
  held : ∀ email, s.held email = ((s.heldAfter start calls email).map fun set =>
    (set.2, s.expiry (start.pass set.1))).toList

section

variable {start : Clock} {calls : List (Nat × ResetCall)} {s : Store}

theorem SameRules.heldAfter {s s' : Store} (h : SameRules s s') (start : Clock)
    (calls : List (Nat × ResetCall)) (email : String) :
    s'.heldAfter start calls email = s.heldAfter start calls email := by
  simp only [Store.heldAfter, h.keepsExpired, h.honours]

/-- **A call does to a store what it does to the calls.** -/
theorem Tracks.call (ok : Tracks start calls s) (t : Nat) (c : ResetCall) :
    Tracks start (calls ++ [(t, c)]) (c.run (start.pass t) s) := by
  have hrules := sameRules_run (start.pass t) c s
  refine ⟨(held_run ok.answers (start.pass t) c "").1, fun email => ?_⟩
  obtain ⟨-, hheld⟩ := held_run ok.answers (start.pass t) c email
  rw [hheld, hrules.heldAfter, heldAfter_concat, heldOnce, holdsLive, ok.held email]
  simp only [hrules.expiry]
  by_cases hchanges : c.changes email = true
  · rw [if_pos hchanges, if_pos hchanges, Option.map_map]
    rfl
  · rw [if_neg hchanges, if_neg hchanges]
    cases s.heldAfter start calls email with
    | none => simp
    | some set =>
      -- what is held is dropped if it is asked for and not honoured any more
      have hlive : ((Option.map (fun set : Nat × String => (set.2, s.expiry (start.pass set.1)))
          (some set)).toList.head?.any fun x => decide (s.reading (start.pass t) < x.2)) =
            s.honours (start.pass set.1) (start.pass t) := rfl
      rw [hlive]
      cases hdrops : c.asks email && !s.keepsExpired with
      | false => simp
      | true =>
        cases hhonours : s.honours (start.pass set.1) (start.pass t) with
        | true => simp [Option.filter_some, hhonours]
        | false => simp [Option.filter_some, hhonours]

theorem Tracks.run (ok : Tracks start [] s) (calls : List (Nat × ResetCall)) :
    Tracks start calls (s.afterCalls start calls) ∧ SameRules s (s.afterCalls start calls) := by
  induction calls using List.reverseRecOn with
  | nil => exact ⟨ok, fun _ => rfl, fun _ => rfl, rfl⟩
  | append_singleton calls x ih =>
    obtain ⟨htracks, hrules⟩ := ih
    have hrun : s.afterCalls start (calls ++ [x]) =
        x.2.run (start.pass x.1) (s.afterCalls start calls) := by
      rw [afterCalls, List.foldl_append]
      rfl
    rw [hrun]
    exact ⟨htracks.call x.1 x.2, hrules.trans (sameRules_run _ _ _)⟩

end

/-! ### What is dropped -/

/-- The token that was set at `t` has been asked for since, when it had expired, and the store
drops it for that. -/
def Dropped (start : Clock) (calls : List (Nat × ResetCall)) (email : String) (t : Nat)
    (s : Store) : Prop :=
  s.keepsExpired = false ∧ ∃ x ∈ sinceChange email calls, x.2.asks email = true ∧
    s.honours (start.pass t) (start.pass x.1) = false

theorem heldAfter_eq_some {start : Clock} {calls : List (Nat × ResetCall)} {email : String}
    {s : Store} {set : Nat × String} : s.heldAfter start calls email = some set ↔
      latestSet email calls = some set ∧ ¬ s.Dropped start calls email set.1 := by
  rw [heldAfter, Option.filter_eq_some_iff]
  refine and_congr_right fun _ => ?_
  rw [Dropped]
  cases s.keepsExpired with
  | true => simp
  | false => simp [imp_iff_not_or]

/-- A store that answers every call, and holds no token. -/
def Tokenless : Store → Prop
  | memory m => m.resets = []
  | sql db => db.Accepts ∧ db.resets = some []

theorem tracks_of_tokenless {s : Store} (h : s.Tokenless) (start : Clock) : Tracks start [] s := by
  cases s with
  | memory m =>
    refine ⟨trivial, fun email => ?_⟩
    have hresets : m.resets = [] := h
    rw [held, hresets]
    rfl
  | sql db =>
    refine ⟨⟨h.1, [], h.2⟩, fun email => ?_⟩
    rw [held_rows h.2]
    rfl

section

variable {start : Clock} {calls : List (Nat × ResetCall)} {email : String} {s : Store} {now : Nat}

theorem not_dropped_of_honours (hnow : ∀ x ∈ calls, x.1 ≤ now) {t : Nat}
    (hlive : s.honours (start.pass t) (start.pass now) = true) :
    ¬ s.Dropped start calls email t := by
  rintro ⟨-, x, hx, -, hexpired⟩
  have hmem : x ∈ calls := List.mem_reverse.mp ((List.takeWhile_sublist _).subset hx)
  rw [honours_of_le (hnow x hmem) hlive] at hexpired
  cases hexpired

theorem isSome_heldAfter : (s.heldAfter start calls email).isSome = true ↔
    ∃ t token, latestSet email calls = some (t, token) ∧ ¬ s.Dropped start calls email t := by
  rw [Option.isSome_iff_exists]
  constructor
  · rintro ⟨⟨t, token⟩, hset⟩
    exact ⟨t, token, heldAfter_eq_some.mp hset⟩
  · rintro ⟨t, token, hset⟩
    exact ⟨(t, token), heldAfter_eq_some.mpr hset⟩

/-- What is held is live, unless it has expired and nobody asked for it since. -/
theorem isSome_heldAfter_eq_iff (hnow : ∀ x ∈ calls, x.1 ≤ now) :
    (s.heldAfter start calls email).isSome = (((latestSet email calls).filter fun set =>
        s.honours (start.pass set.1) (start.pass now)).map (·.2)).isSome ↔
      ∀ t token, latestSet email calls = some (t, token) →
        s.honours (start.pass t) (start.pass now) = true ∨ s.Dropped start calls email t := by
  rw [Bool.eq_iff_iff, isSome_heldAfter, Option.isSome_map]
  cases latestSet email calls with
  | none => simp
  | some set =>
    obtain ⟨t, token⟩ := set
    have hkept : s.honours (start.pass t) (start.pass now) = true →
        ¬ s.Dropped start calls email t := not_dropped_of_honours hnow
    rw [Option.filter_some, Option.isSome_ite]
    simp only [Option.some.injEq, Prod.mk.injEq]
    constructor
    · rintro hagree t' token' ⟨rfl, rfl⟩
      by_cases hdropped : s.Dropped start calls email t
      · exact .inr hdropped
      · exact .inl (hagree.mp ⟨t, token, ⟨rfl, rfl⟩, hdropped⟩)
    · intro hall
      constructor
      · rintro ⟨t', token', ⟨rfl, rfl⟩, hnot⟩
        exact (hall t token ⟨rfl, rfl⟩).resolve_right hnot
      · exact fun hlive => ⟨t, token, ⟨rfl, rfl⟩, hkept hlive⟩

/-- What a store answers after some calls. -/
theorem answers_afterCalls (tokenless : s.Tokenless) (start : Clock)
    (calls : List (Nat × ResetCall)) (now : Clock) (email : String) :
    ((s.afterCalls start calls).getReset now email).1 =
      .ok (((s.heldAfter start calls email).filter fun set =>
        s.honours (start.pass set.1) now).map (·.2)) ∧
    ((s.afterCalls start calls).deleteReset email).1 =
      .ok (s.heldAfter start calls email).isSome := by
  obtain ⟨htracks, hrules⟩ := (tracks_of_tokenless tokenless start).run calls
  have hheld := htracks.held email
  rw [hrules.heldAfter] at hheld
  constructor
  · rw [getReset_of_held htracks.answers hheld, Option.filter_map, Option.map_map]
    simp only [Function.comp_def, hrules.reading, hrules.expiry, honours]
  · rw [deleteReset_eq htracks.answers, hheld]
    cases s.heldAfter start calls email <;> rfl

/-- What has been dropped would not be answered either. -/
theorem filter_heldAfter (hnow : ∀ x ∈ calls, x.1 ≤ now) :
    (s.heldAfter start calls email).filter (fun set =>
        s.honours (start.pass set.1) (start.pass now)) =
      (latestSet email calls).filter fun set => s.honours (start.pass set.1) (start.pass now) := by
  refine Option.ext fun set => ?_
  rw [Option.filter_eq_some_iff, Option.filter_eq_some_iff, heldAfter_eq_some]
  constructor
  · rintro ⟨⟨hlatest, -⟩, hlive⟩
    exact ⟨hlatest, hlive⟩
  · rintro ⟨hlatest, hlive⟩
    exact ⟨⟨hlatest, not_dropped_of_honours hnow hlive⟩, hlive⟩

end

/--
**A deletion finds what has not been dropped, be it live or not.**  Calls are made to a store that
holds no token at first, in memory, with whatever lifetime tokens have there, or in a table.
Afterwards

  * whoever asks for a token is answered with the one that was set last, unless it was deleted
    since or has expired;
  * a deletion answers true exactly if some token was set last, not deleted since, and not
    dropped.  Only memory drops a token, and only if it was asked for when it had expired;
  * so the two answers agree exactly if no token was set last, or if that is live or was dropped;
  * with other calls that only ask for tokens before, whoever asks is answered the same.  So is a
    deletion, unless the store is in memory and the token that was set last has expired.
-/
theorem deletions_decided {s : Store} (tokenless : s.Tokenless) (start : Clock)
    {calls : List (Nat × ResetCall)} {now : Nat} (hnow : ∀ x ∈ calls, x.1 ≤ now)
    (email : String) :
    let after (calls : List (Nat × ResetCall)) := s.afterCalls start calls
    let live (t : Nat) : Prop := s.honours (start.pass t) (start.pass now) = true
    ∃ (answer : Option String) (found : Bool),
      ((after calls).getReset (start.pass now) email).1 = .ok answer ∧
      ((after calls).deleteReset email).1 = .ok found ∧
      (∀ token, answer = some token ↔
        ∃ t, latestSet email calls = some (t, token) ∧ live t) ∧
      (found = true ↔
        ∃ t token, latestSet email calls = some (t, token) ∧ ¬ s.Dropped start calls email t) ∧
      (found = answer.isSome ↔ ∀ t token, latestSet email calls = some (t, token) →
        live t ∨ s.Dropped start calls email t) ∧
      ∀ calls' : List (Nat × ResetCall), (∀ x ∈ calls', x.1 ≤ now) →
        (calls'.filter fun x => !x.2.reads) = (calls.filter fun x => !x.2.reads) →
        ((after calls').getReset (start.pass now) email).1 = .ok answer ∧
        ((∀ t token, latestSet email calls = some (t, token) →
            live t ∨ s.keepsExpired = true) →
          ((after calls').deleteReset email).1 = .ok found) := by
  intro after live
  have hlatest {calls' : List (Nat × ResetCall)}
      (hsame : (calls'.filter fun x => !x.2.reads) = (calls.filter fun x => !x.2.reads)) :
      latestSet email calls' = latestSet email calls := by
    rw [← latestSet_filter email calls', hsame, latestSet_filter]
  obtain ⟨hget, hdelete⟩ := answers_afterCalls tokenless start calls (start.pass now) email
  rw [filter_heldAfter hnow] at hget
  refine ⟨_, _, hget, hdelete, ?_, isSome_heldAfter, ?_, ?_⟩
  · intro token
    simp [Option.filter_eq_some_iff, live]
  · exact isSome_heldAfter_eq_iff hnow
  · intro calls' hnow' hsame
    obtain ⟨hget', hdelete'⟩ := answers_afterCalls tokenless start calls' (start.pass now) email
    rw [filter_heldAfter hnow', hlatest hsame] at hget'
    refine ⟨hget', fun hkept => ?_⟩
    have hnot {calls : List (Nat × ResetCall)} (hnow : ∀ x ∈ calls, x.1 ≤ now) {t : Nat}
        (h : live t ∨ s.keepsExpired = true) : ¬ s.Dropped start calls email t := by
      rcases h with hlive | hkeeps
      · exact not_dropped_of_honours hnow hlive
      · exact fun hdropped => Bool.noConfusion (hdropped.1.symm.trans hkeeps)
    rw [hdelete']
    refine congrArg Except.ok (Bool.eq_iff_iff.mpr ?_)
    rw [isSome_heldAfter, isSome_heldAfter, hlatest hsame]
    constructor
    · rintro ⟨t, token, hset, -⟩
      exact ⟨t, token, hset, hnot hnow (hkept t token hset)⟩
    · rintro ⟨t, token, hset, -⟩
      exact ⟨t, token, hset, hnot hnow' (hkept t token hset)⟩

/-- A token that lasts a minute was asked for after that.  It has been dropped, so a deletion finds
nothing either. -/
theorem deletions_decided_asked :
    let start : Clock := .atMs 0
    let email := "bob@example.com"
    let s : Store := memory { resetLifetimeMs := 60000 }
    let calls : List (Nat × ResetCall) :=
      [(0, .set "Bob@Example.com" "tok"), (61 * Clock.second, .get email)]
    let now := 61 * Clock.second
    s.Tokenless ∧ (∀ x ∈ calls, x.1 ≤ now) ∧ latestSet email calls = some (0, "tok") ∧
      s.Dropped start calls email 0 ∧
      ((s.afterCalls start calls).getReset (start.pass now) email).1 = .ok none ∧
      ((s.afterCalls start calls).deleteReset email).1 = .ok false := by
  intro start email s calls now
  have hnow : ∀ x ∈ calls, x.1 ≤ now := by decide +kernel
  have hsame : normalizeEmail "Bob@Example.com" = normalizeEmail email := by
    have hset : normalizeEmail "Bob@Example.com" = email := by decide +kernel
    have hasked : normalizeEmail email = email := by decide +kernel
    rw [hset, hasked]
  have hlatest : latestSet email calls = some (0, "tok") := by
    have hset : (ResetCall.set "Bob@Example.com" "tok").changes email = true :=
      beq_iff_eq.mpr hsame
    refine (latestSet_concat email (calls.take 1) now (.get email)).trans ?_
    refine (latestSet_concat email [] 0 (.set "Bob@Example.com" "tok")).trans ?_
    rw [hset]
    rfl
  have hdropped : s.Dropped start calls email 0 := by
    have hsince : sinceChange email calls = (now, .get email) :: sinceChange email (calls.take 1) :=
      sinceChange_concat email (calls.take 1) (now, .get email)
    refine ⟨rfl, (now, .get email), ?_, beq_self_eq_true (normalizeEmail email), by decide +kernel⟩
    rw [hsince]
    exact List.mem_cons_self
  obtain ⟨answer, found, hget, hdelete, hanswer, hfound, -, -⟩ :=
    deletions_decided (s := s) rfl start hnow email
  obtain rfl : found = false := by
    rw [← Bool.not_eq_true, hfound]
    rintro ⟨t, token, hset, hnot⟩
    obtain ⟨rfl, rfl⟩ := Prod.mk.inj (Option.some.inj (hlatest.symm.trans hset))
    exact hnot hdropped
  obtain rfl : answer = none := by
    rw [Option.eq_none_iff_forall_ne_some]
    intro token hsome
    obtain ⟨t, hset, hlive⟩ := (hanswer token).mp hsome
    obtain ⟨rfl, rfl⟩ := Prod.mk.inj (Option.some.inj (hlatest.symm.trans hset))
    exact absurd hlive (by decide +kernel)
  exact ⟨rfl, hnow, hlatest, hdropped, hget, hdelete⟩

/-- The same token, when nobody has asked for it, is answered to nobody after that minute, and yet
a deletion finds it; asking first makes the difference.  In a table it is found after a day all
the same, whoever asks. -/
theorem expired_token_deleted :
    let start : Clock := .atMs 0
    let email := "bob@example.com"
    let set : Nat × ResetCall := (0, .set email "tok")
    let s : Store := memory { resetLifetimeMs := 60000 }
    let minute := 61 * Clock.second
    let table : Store := sql {}
    ((s.afterCalls start [set]).getReset (start.pass minute) email).1 = .ok none ∧
      ((s.afterCalls start [set]).deleteReset email).1 = .ok true ∧
      ((s.afterCalls start [set, (minute, .get email)]).deleteReset email).1 = .ok false ∧
      ((table.afterCalls start [set]).getReset (start.pass Clock.day) email).1 = .ok none ∧
      ((table.afterCalls start [set, (Clock.day, .get email)]).deleteReset email).1 = .ok true := by
  intro start email set s minute table
  refine ⟨?_, ?_, ?_, ?_, ?_⟩
  · decide +kernel
  · decide +kernel
  · decide +kernel
  · decide +kernel
  · decide +kernel

end Store

end Foreman
