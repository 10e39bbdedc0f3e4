/-
How long a reset token can be asked for.

A store is handed calls that set, ask for and delete reset tokens, each at its instant,
while time passes and never goes back.  Which token is due is a matter of the calls
alone: that of the last call that sets one for the email, unless it was deleted since.
How long it is due is where the stores differ.  Memory keeps the instant at which a
token expires, and a table the second at which it does, so that a token set between two
seconds expires in the table up to a second early.

`After` says what one call does to the tokens that are live from then on.  That memory
drops an entry that it finds expired does not show there, because time does not go back.
-/
import Mathlib.Data.List.Induction
import Foreman.Proofs.Account
import Foreman.Proofs.Store.Statement

namespace Foreman

/-! ### Calls -/

/-- A call about the reset token of an email. -/
inductive ResetCall where
  | set (email token : String)
  | get (email : String)
  | delete (email : String)

namespace ResetCall

/-- Whether a call changes which token an email has. -/
def changes (email : String) : ResetCall → Bool
  | set e _ => normalizeEmail e == normalizeEmail email
  | get _ => false
  | delete e => normalizeEmail e == normalizeEmail email

/-- The token that a call sets. -/
def token? : ResetCall → Option String
  | set _ token => some token
  | get _ => none
  | delete _ => none

/-- A store once a call was made at an instant. -/
def run (clock : Clock) (c : ResetCall) (s : Store) : Store :=
  match c with
  | set email token => (s.setReset clock email token).2
  | get email => (s.getReset clock email).2
  | delete email => (s.deleteReset email).2

end ResetCall

/-- When the token of an email was set last, and which one it is, unless it was deleted since. -/
def latestSet (email : String) (calls : List (Nat × ResetCall)) : Option (Nat × String) :=
  (calls.filter (·.2.changes email)).getLast?.bind fun x => x.2.token?.map (x.1, ·)

theorem latestSet_concat (email : String) (calls : List (Nat × ResetCall)) (t : Nat)
    (c : ResetCall) :
    latestSet email (calls ++ [(t, c)]) =
      if c.changes email then c.token?.map (t, ·) else latestSet email calls := by
  rw [latestSet, List.filter_append]
  by_cases h : c.changes email
  · simp [h]
  · simp [h, latestSet]

/-- The latest token was set for the same email. -/
theorem mem_of_latestSet {email : String} {calls : List (Nat × ResetCall)} {t : Nat}
    {token : String} (h : latestSet email calls = some (t, token)) :
    ∃ e, normalizeEmail e = normalizeEmail email ∧ (t, .set e token) ∈ calls := by
  obtain ⟨⟨t', c⟩, hlast, htoken⟩ := Option.bind_eq_some_iff.mp h
  obtain ⟨hmem, hchanges⟩ := List.mem_filter.mp (List.mem_of_getLast? hlast)
  obtain ⟨token', hc, heq⟩ := Option.map_eq_some_iff.mp htoken
  obtain ⟨rfl, rfl⟩ := Prod.mk.inj heq
  cases c with
  | set e _ =>
      obtain rfl := Option.some.inj hc
      exact ⟨e, beq_iff_eq.mp hchanges, hmem⟩
  | get e => cases hc
  | delete e => cases hc

/-! ### Lifetimes -/

namespace Clock

/-- A second, in nanoseconds. -/
def second : Nat := 1000000000

/-- A day, in nanoseconds. -/
def day : Nat := 24 * 60 * 60 * second

/-- The wall clock shows a whole second. -/
def Whole (c : Clock) : Prop := c.sinceEpoch % second = 0

theorem unixSeconds_pass {start : Clock} (h : 0 ≤ start.wallNanos) (t : Nat) :
    (start.pass t).unixSeconds = (start.sinceEpoch + t) / 1000000000 := by
  have htoNat : (start.wallNanos + t).toNat = start.wallNanos.toNat + t := by omega
  rw [unixSeconds, sinceEpoch, sinceEpoch, pass, htoNat]

end Clock

namespace Store

/-- Whether a token that was set at one instant is live at another. -/
def lasts (since now : Clock) : Store → Bool
  | memory _ => decide (now.monoNanos < since.monoNanos + Clock.day)
  | sql _ => decide (now.unixSeconds < since.unixSeconds + resetLifetimeSeconds)

/-- A store stays in memory, or in its database. -/
theorem lasts_run (clock : Clock) (c : ResetCall) (s : Store) (since now : Clock) :
    (c.run clock s).lasts since now = s.lasts since now := by
  cases s with
  | memory m => cases c <;> rfl
  | sql db => cases c <;> rfl

section Lifetime

variable {start : Clock} {t now : Nat} {m : MemoryStore} {db : Database}

theorem lasts_memory :
    (memory m).lasts (start.pass t) (start.pass now) = decide (now < t + Clock.day) := by
  rw [lasts, decide_eq_decide]
  show start.monoNanos + now < start.monoNanos + t + Clock.day ↔ now < t + Clock.day
  omega

theorem lasts_sql (hstart : 0 ≤ start.wallNanos) :
    (sql db).lasts (start.pass t) (start.pass now) = true ↔
      (start.sinceEpoch + now) / 1000000000 <
        (start.sinceEpoch + t) / 1000000000 + resetLifetimeSeconds := by
  rw [lasts, decide_eq_true_iff, Clock.unixSeconds_pass hstart, Clock.unixSeconds_pass hstart]

/-- Set at a whole second, a token is live in a table exactly as long as in memory. -/
theorem lasts_sql_of_whole (hstart : 0 ≤ start.wallNanos) (hwhole : (start.pass t).Whole) :
    (sql db).lasts (start.pass t) (start.pass now) = decide (now < t + Clock.day) := by
  have hsince : (start.pass t).sinceEpoch = start.sinceEpoch + t := by
    show (start.wallNanos + t).toNat = start.wallNanos.toNat + t
    omega
  rw [Clock.Whole, hsince, Clock.second] at hwhole
  rw [Bool.eq_iff_iff, lasts_sql hstart, decide_eq_true_iff, Clock.day, Clock.second,
    resetLifetimeSeconds]
  omega

/-- Whenever it is set, it is live in a table no longer than in memory, and if it is live in
memory only then it is in the last second of its life. -/
theorem lasts_sql_cases (hstart : 0 ≤ start.wallNanos) :
    (sql db).lasts (start.pass t) (start.pass now) = decide (now < t + Clock.day) ∨
      (sql db).lasts (start.pass t) (start.pass now) = false ∧
        t + Clock.day < now + Clock.second ∧ now < t + Clock.day := by
  cases hsql : (sql db).lasts (start.pass t) (start.pass now) with
  | true =>
      rw [lasts_sql hstart, resetLifetimeSeconds] at hsql
      refine .inl (decide_eq_true ?_).symm
      rw [Clock.day, Clock.second]
      omega
  | false =>
      rw [← Bool.not_eq_true, lasts_sql hstart, resetLifetimeSeconds] at hsql
      by_cases hlive : now < t + Clock.day
      · refine .inr ⟨rfl, ?_, hlive⟩
        rw [Clock.day, Clock.second]
        omega
      · exact .inl (decide_eq_false hlive).symm

end Lifetime

/-! ### What one call does -/

/-- The token of an email that is live at an instant. -/
def live (now : Clock) (email : String) : Store → Option String
  | memory m => m.liveReset now email
  | sql db => ((db.resets.getD []).find? fun row =>
      row.email == normalizeEmail email && decide (now.unixSeconds < row.expiresAt)).map (·.token)

/-- Tokens can be kept for their lifetime. -/
def Keeps : Store → Prop
  | memory m => m.resetLifetimeMs = 1000 * resetLifetimeSeconds
  | sql db => db.Accepts ∧ ∃ rows, db.resets = some rows

/-- What a call at an instant does: from then on, the emails that it changes have the token that
it sets, for its lifetime, and the other emails have what they had. -/
structure After (clock : Clock) (c : ResetCall) (s s' : Store) : Prop where
  keeps : s'.Keeps
  live : ∀ now, clock.monoNanos ≤ now.monoNanos → ∀ email, s'.live now email =
    if c.changes email then c.token?.filter fun _ => s.lasts clock now else s.live now email

/-! ### Entries by their keys -/

/-- Once the entries with the key `k` are gone, none with that key is found, and any other is
found as before. -/
theorem find?_filter_ne {α β : Type} [DecidableEq β] {key : α → β} (k : β) {k' : β} {p : α → Bool}
    (hp : ∀ a, p a = true → key a = k') (l : List α) :
    (l.filter (key · != k)).find? p = if k = k' then none else l.find? p := by
  rw [List.find?_filter]
  by_cases h : k = k'
  · rw [if_pos h, List.find?_eq_none]
    intro a _ ha
    obtain ⟨hne, hpa⟩ := of_decide_eq_true ha
    exact bne_iff_ne.mp hne ((hp a hpa).trans h.symm)
  · rw [if_neg h]
    congr 1
    funext a
    cases hpa : p a with
    | false => simp
    | true =>
        have hne : key a ≠ k := fun he => h (he.symm.trans (hp a hpa))
        simp [hne]

/-! ### One call in memory -/

section Memory

variable (m : MemoryStore)

theorem liveReset_dropReset (now : Clock) (e email : String) :
    (m.dropReset e).liveReset now email =
      if normalizeEmail e = normalizeEmail email then none else m.liveReset now email := by
  have hentry : (m.dropReset e).resetEntry email =
      if normalizeEmail e = normalizeEmail email then none else m.resetEntry email :=
    find?_filter_ne (normalizeEmail e) (fun _ h => beq_iff_eq.mp h) m.resets
  rw [MemoryStore.liveReset, hentry]
  by_cases h : normalizeEmail e = normalizeEmail email
  · rw [if_pos h, if_pos h]
    rfl
  · rw [if_neg h, if_neg h]
    rfl

theorem liveReset_setReset (clock now : Clock) (e token email : String)
    (hlife : m.resetLifetimeMs = 1000 * resetLifetimeSeconds) :
    (m.setReset clock e token).liveReset now email =
      if normalizeEmail e = normalizeEmail email then
        (some token).filter fun _ => (memory m).lasts clock now
      else m.liveReset now email := by
  have hday : m.resetLifetimeMs * 1000000 = Clock.day := by rw [hlife]; rfl
  by_cases h : normalizeEmail e = normalizeEmail email
  · have hentry : (m.setReset clock e token).resetEntry email =
        some ⟨normalizeEmail e, token, clock.monoNanos + Clock.day⟩ := by
      rw [MemoryStore.resetEntry, MemoryStore.setReset, hday]
      exact List.find?_cons_of_pos (beq_iff_eq.mpr h)
    rw [if_pos h, MemoryStore.liveReset, hentry, Option.filter_some, Option.filter_some, lasts]
    split
    · rfl
    · rfl
  · have hentry : (m.setReset clock e token).resetEntry email = (m.dropReset e).resetEntry email :=
      List.find?_cons_of_neg (by simpa using h)
    have hlive := liveReset_dropReset m now e email
    rw [if_neg h] at hlive
    rw [if_neg h, ← hlive, MemoryStore.liveReset, hentry]
    rfl

/-- An entry that has expired stays expired. -/
theorem liveReset_eq_none_mono {clock now : Clock} (hle : clock.monoNanos ≤ now.monoNanos)
    {email : String} (h : m.liveReset clock email = none) : m.liveReset now email = none := by
  rw [MemoryStore.liveReset, Option.map_eq_none_iff, Option.filter_eq_none_iff] at h ⊢
  intro entry hentry hlive
  have hexpired := h entry hentry
  rw [decide_eq_true_iff] at hexpired hlive
  omega

theorem liveReset_getReset {clock now : Clock} (hle : clock.monoNanos ≤ now.monoNanos)
    (e email : String) :
    (m.getReset clock e).2.liveReset now email = m.liveReset now email := by
  cases hlive : m.liveReset clock e with
  | some token => rw [MemoryStore.getReset, hlive]
  | none =>
      rw [MemoryStore.getReset, hlive]
      show (m.dropReset e).liveReset now email = m.liveReset now email
      rw [liveReset_dropReset]
      by_cases h : normalizeEmail e = normalizeEmail email
      · have hnone := liveReset_eq_none_mono m hle hlive
        rw [MemoryStore.liveReset, MemoryStore.resetEntry, h] at hnone
        rw [if_pos h]
        exact hnone.symm
      · rw [if_neg h]

end Memory

/-! ### One call in a table -/

section Table

variable {db : Database} {rows : List ResetRow}

theorem deleteReset_of_accepts (h : db.Accepts) (hrows : db.resets = some rows) (e : String) :
    db.deleteReset e = (.ok (rows.any (·.email == normalizeEmail e)),
      { db.sent with resets := some (rows.filter (·.email != normalizeEmail e)) }) := by
  refine Database.execute_of_accepts h .deleteReset ?_
  simp only [hrows]
  rfl

theorem insertReset_of_accepts (h : db.Accepts) (hrows : db.resets = some rows) (row : ResetRow) :
    db.insertReset row = (.ok (), { db.sent with resets := some (rows ++ [row]) }) := by
  refine Database.execute_of_accepts h .insertReset ?_
  simp only [hrows]
  rfl

theorem setReset_of_accepts (h : db.Accepts) (hrows : db.resets = some rows) (clock : Clock)
    (e token : String) : db.setReset clock e token = (.ok (), { db.sent.sent with
      resets := some (rows.filter (·.email != normalizeEmail e) ++
        [⟨normalizeEmail e, token, clock.unixSeconds + resetLifetimeSeconds⟩]) }) := by
  have hdelete := deleteReset_of_accepts h hrows (normalizeEmail e)
  rw [normalizeEmail_idem] at hdelete
  let deleted : Database :=
    { db.sent with resets := some (rows.filter (·.email != normalizeEmail e)) }
  have haccepts : deleted.Accepts := Database.accepts_drop h
  rw [Database.setReset, hdelete]
  exact insertReset_of_accepts haccepts rfl _

theorem getReset_of_accepts (h : db.Accepts) (hrows : db.resets = some rows) (now : Clock)
    (email : String) : db.getReset now email = (.ok ((sql db).live now email), db.sent) := by
  refine Database.query_of_accepts h .selectReset ?_
  have hsent : db.sent.resets = some rows := hrows
  rw [live, hsent, hrows]
  rfl

/-- The rows of another email than the deleted one are found as before. -/
theorem find?_rows_deleted (e email : String) (now : Clock) (rows : List ResetRow) :
    (rows.filter (·.email != normalizeEmail e)).find? (fun row =>
        row.email == normalizeEmail email && decide (now.unixSeconds < row.expiresAt)) =
      if normalizeEmail e = normalizeEmail email then none
      else rows.find? fun row =>
        row.email == normalizeEmail email && decide (now.unixSeconds < row.expiresAt) := by
  refine find?_filter_ne (normalizeEmail e) ?_ rows
  intro row hrow
  rw [Bool.and_eq_true, beq_iff_eq] at hrow
  exact hrow.1

theorem after_delete_sql (ok : (sql db).Keeps) (clock : Clock) (e : String) :
    After clock (.delete e) (sql db) ((ResetCall.delete e).run clock (sql db)) := by
  obtain ⟨haccepts, rows, hrows⟩ := ok
  have hrun : (ResetCall.delete e).run clock (sql db) =
      sql { db.sent with resets := some (rows.filter (·.email != normalizeEmail e)) } := by
    show sql (db.deleteReset e).2 = _
    rw [deleteReset_of_accepts haccepts hrows]
  rw [hrun]
  refine ⟨⟨Database.accepts_drop haccepts, _, rfl⟩, ?_⟩
  intro now _ email
  rw [live, Option.getD_some, find?_rows_deleted, live, hrows, Option.getD_some,
    ResetCall.changes, ResetCall.token?]
  by_cases h : normalizeEmail e = normalizeEmail email
  · simp [h]
  · simp [h]

theorem after_set_sql (ok : (sql db).Keeps) (clock : Clock) (e token : String) :
    After clock (.set e token) (sql db) ((ResetCall.set e token).run clock (sql db)) := by
  obtain ⟨haccepts, rows, hrows⟩ := ok
  let row : ResetRow := ⟨normalizeEmail e, token, clock.unixSeconds + resetLifetimeSeconds⟩
  have hsent : db.sent.Accepts := Database.accepts_drop haccepts
  have hrun : (ResetCall.set e token).run clock (sql db) = sql { db.sent.sent with
      resets := some (rows.filter (·.email != normalizeEmail e) ++ [row]) } := by
    show sql (db.setReset clock e token).2 = _
    rw [setReset_of_accepts haccepts hrows]
  rw [hrun]
  refine ⟨⟨Database.accepts_drop hsent, _, rfl⟩, ?_⟩
  intro now _ email
  rw [live, Option.getD_some, List.find?_append, find?_rows_deleted, live, hrows,
    Option.getD_some, ResetCall.changes, ResetCall.token?, Option.filter_some, lasts]
  by_cases h : normalizeEmail e = normalizeEmail email
  · -- The only row of this email is the one that was inserted.
    by_cases hlive : now.unixSeconds < clock.unixSeconds + resetLifetimeSeconds
    · simp [h, row, hlive]
    · simp [h, row, hlive]
  · simp [h, row]

theorem after_get_sql (ok : (sql db).Keeps) (clock : Clock) (e : String) :
    After clock (.get e) (sql db) ((ResetCall.get e).run clock (sql db)) := by
  obtain ⟨haccepts, rows, hrows⟩ := ok
  have hrun : (ResetCall.get e).run clock (sql db) = sql db.sent := by
    show sql (db.getReset clock e).2 = _
    rw [getReset_of_accepts haccepts hrows]
  rw [hrun]
  exact ⟨⟨Database.accepts_drop haccepts, rows, hrows⟩, fun _ _ _ => rfl⟩

end Table

/-! ### One call -/

theorem after_memory {m : MemoryStore} (ok : (memory m).Keeps) (clock : Clock) (c : ResetCall) :
    After clock c (memory m) (c.run clock (memory m)) := by
  cases c with
  | set e token =>
      refine ⟨ok, ?_⟩
      intro now _ email
      show (m.setReset clock e token).liveReset now email = _
      rw [liveReset_setReset m clock now e token email ok]
      simp only [ResetCall.changes, ResetCall.token?, beq_iff_eq]
      rfl
  | get e =>
      refine ⟨?_, ?_⟩
      · show (m.getReset clock e).2.resetLifetimeMs = _
        rw [MemoryStore.getReset]
        split
        · exact ok
        · exact ok
      · intro now hle email
        exact liveReset_getReset m hle e email
  | delete e =>
      refine ⟨ok, ?_⟩
      intro now _ email
      show (m.dropReset e).liveReset now email = _
      rw [liveReset_dropReset]
      simp only [ResetCall.changes, ResetCall.token?, beq_iff_eq]
      rfl

/-- **What a call does is the same in both stores.** -/
theorem after_run {s : Store} (ok : s.Keeps) (clock : Clock) (c : ResetCall) :
    After clock c s (c.run clock s) := by
  cases s with
  | memory m => exact after_memory ok clock c
  | sql db =>
      cases c with
      | set e token => exact after_set_sql ok clock e token
      | get e => exact after_get_sql ok clock e
      | delete e => exact after_delete_sql ok clock e

/-- Whoever asks for a token is answered with the one that is live. -/
theorem getReset_eq_live {s : Store} (ok : s.Keeps) (now : Clock) (email : String) :
    (s.getReset now email).1 = .ok (s.live now email) := by
  cases s with
  | memory m =>
      show Except.ok (m.getReset now email).1 = Except.ok (m.liveReset now email)
      rw [MemoryStore.getReset_fst]
  | sql db =>
      obtain ⟨haccepts, rows, hrows⟩ := ok
      show (db.getReset now email).1 = _
      rw [getReset_of_accepts haccepts hrows]

/-! ### Runs of calls -/

/-- The store once calls were made, each so many nanoseconds after the start. -/
def afterCalls (start : Clock) (calls : List (Nat × ResetCall)) (s : Store) : Store :=
  calls.foldl (fun s x => x.2.run (start.pass x.1) s) s

theorem lasts_afterCalls (start : Clock) (calls : List (Nat × ResetCall)) (since now : Clock) :
    ∀ s : Store, (s.afterCalls start calls).lasts since now = s.lasts since now := by
  induction calls with
  | nil => intro s; rfl
  | cons x calls ih => intro s; exact (ih _).trans (lasts_run _ _ _ _ _)

/-- From the last of the calls on, the tokens that are live are those that were set last and
have not expired. -/
structure Remembers (start : Clock) (calls : List (Nat × ResetCall)) (s : Store) : Prop where
  keeps : s.Keeps
  live : ∀ now, (∀ x ∈ calls, x.1 ≤ now) → ∀ email, s.live (start.pass now) email =
    ((latestSet email calls).filter fun set =>
      s.lasts (start.pass set.1) (start.pass now)).map (·.2)

namespace Remembers

variable {start : Clock} {calls : List (Nat × ResetCall)} {s : Store}

theorem call (ok : Remembers start calls s) {t : Nat} (ht : ∀ x ∈ calls, x.1 ≤ t) (c : ResetCall) :
    Remembers start (calls ++ [(t, c)]) (c.run (start.pass t) s) := by
  have after := after_run ok.keeps (start.pass t) c
  refine ⟨after.keeps, ?_⟩
  intro now hnow email
  have hle : t ≤ now := hnow (t, c) (List.mem_concat_self)
  have hpass : (start.pass t).monoNanos ≤ (start.pass now).monoNanos := Nat.add_le_add_left hle _
  have hold : ∀ x ∈ calls, x.1 ≤ now := fun x hx => (ht x hx).trans hle
  simp only [after.live (start.pass now) hpass email, lasts_run, latestSet_concat,
    ok.live now hold email]
  by_cases h : c.changes email = true
  · rw [if_pos h, if_pos h]
    cases c.token? with
    | none => rfl
    | some token =>
        simp only [Option.map_some, Option.filter_some]
        split
        · rfl
        · rfl
  · rw [if_neg h, if_neg h]

/-- A store without tokens remembers every run of calls. -/
theorem run (ok : Remembers start [] s) (calls : List (Nat × ResetCall))
    (hcalls : calls.Pairwise (·.1 ≤ ·.1)) : Remembers start calls (s.afterCalls start calls) := by
  induction calls using List.reverseRecOn with
  | nil => exact ok
  | append_singleton calls x ih =>
      obtain ⟨hbefore, -, hlast⟩ := List.pairwise_append.mp hcalls
      have ht : ∀ y ∈ calls, y.1 ≤ x.1 := fun y hy => hlast y hy x List.mem_cons_self
      have hrun : s.afterCalls start (calls ++ [x]) =
          x.2.run (start.pass x.1) (s.afterCalls start calls) := by
        rw [afterCalls, List.foldl_append]
        rfl
      rw [hrun]
      exact (ih hbefore).call ht x.2

end Remembers

theorem remembers_memory {m : MemoryStore} (hm : m.resets = [])
    (hlife : m.resetLifetimeMs = 1000 * resetLifetimeSeconds) (start : Clock) :
    Remembers start [] (memory m) := by
  refine ⟨hlife, ?_⟩
  intro now _ email
  rw [live, MemoryStore.liveReset, MemoryStore.resetEntry, hm]
  rfl

theorem remembers_sql {db : Database} (hdb : db.resets = some []) (haccepts : db.Accepts)
    (start : Clock) : Remembers start [] (sql db) := by
  refine ⟨⟨haccepts, [], hdb⟩, ?_⟩
  intro now _ email
  rw [live, hdb]
  rfl

/-- What is answered in a run to a call that asks for a token. -/
theorem getReset_afterCalls {start : Clock} {s : Store} (ok : Remembers start [] s)
    {calls : List (Nat × ResetCall)} (hcalls : calls.Pairwise (·.1 ≤ ·.1)) {n now : Nat}
    {email : String} (hget : calls[n]? = some (now, .get email)) :
    ((s.afterCalls start (calls.take n)).getReset (start.pass now) email).1 =
      .ok (((latestSet email (calls.take n)).filter fun set =>
        s.lasts (start.pass set.1) (start.pass now)).map (·.2)) := by
  obtain ⟨hn, hcall⟩ := List.getElem?_eq_some_iff.mp hget
  have hsplit : (calls.take n ++ (now, .get email) :: calls.drop (n + 1)).Pairwise (·.1 ≤ ·.1) := by
    rw [← hcall, ← List.drop_eq_getElem_cons, List.take_append_drop]
    exact hcalls
  obtain ⟨hbefore, -, hnow⟩ := List.pairwise_append.mp hsplit
  have remembers := ok.run (calls.take n) hbefore
  rw [getReset_eq_live remembers.keeps,
    remembers.live now (fun x hx => hnow x hx _ List.mem_cons_self) email]
  simp only [lasts_afterCalls]

/-- **Tokens are live for a day, in a table up to a second less.**  Calls are made to memory and
to a table, which hold no token at first, while time passes from an instant that is not before
the epoch.  In memory, whoever asks for a token is answered with the one that was set last for
the same normalized email, if it was not deleted since and less than a day has passed.  The
table answers the same if every token is set at a whole second.  However tokens are set, what
the table answers with is also what memory answers with, and if the answers differ then the token
is in the last second of its life. -/
theorem resets_compared {start : Clock} (hstart : 0 ≤ start.wallNanos)
    {m : MemoryStore} (hm : m.resets = []) (hlife : m.resetLifetimeMs = 1000 * resetLifetimeSeconds)
    {db : Database} (hdb : db.resets = some []) (haccepts : db.Accepts)
    {calls : List (Nat × ResetCall)} (hcalls : calls.Pairwise (·.1 ≤ ·.1))
    {n now : Nat} {email : String} (hget : calls[n]? = some (now, .get email)) :
    let before := calls.take n
    let inMemory := (((memory m).afterCalls start before).getReset (start.pass now) email).1
    let inTable := (((sql db).afterCalls start before).getReset (start.pass now) email).1
    inMemory = .ok (((latestSet email before).filter fun set => now < set.1 + Clock.day).map (·.2)) ∧
    ((∀ t e token, (t, .set e token) ∈ before → (start.pass t).Whole) → inTable = inMemory) ∧
    (∀ token, inTable = .ok (some token) → inMemory = .ok (some token)) ∧
    (inTable ≠ inMemory → ∃ t token, latestSet email before = some (t, token) ∧
      inMemory = .ok (some token) ∧ inTable = .ok none ∧
      t + Clock.day < now + Clock.second ∧ now < t + Clock.day) := by
  intro before inMemory inTable
  have hmemory := getReset_afterCalls (remembers_memory hm hlife start) hcalls hget
  have htable := getReset_afterCalls (remembers_sql hdb haccepts start) hcalls hget
  simp only [lasts_memory] at hmemory
  refine ⟨hmemory, ?_⟩
  cases hlatest : latestSet email before with
  | none =>
      rw [hlatest, Option.filter_none, Option.map_none] at hmemory htable
      have hsame : inTable = inMemory := htable.trans hmemory.symm
      exact ⟨fun _ => hsame, fun _ h => hsame ▸ h, fun hne => absurd hsame hne⟩
  | some set =>
      obtain ⟨t, token⟩ := set
      rw [hlatest] at hmemory htable
      -- The stores answer alike as soon as they agree on whether this token is live.
      have hagree (h : (sql db).lasts (start.pass t) (start.pass now) =
          decide (now < t + Clock.day)) : inTable = inMemory := by
        refine htable.trans (Eq.trans ?_ hmemory.symm)
        rw [Option.filter_some, Option.filter_some, h]
      refine ⟨?_, ?_⟩
      · intro hwhole
        obtain ⟨e, -, hset⟩ := mem_of_latestSet hlatest
        exact hagree (lasts_sql_of_whole hstart (hwhole t e token hset))
      · rcases lasts_sql_cases hstart with hsql | ⟨hsql, hlate, hlive⟩
        · exact ⟨fun _ h => hagree hsql ▸ h, fun hne => absurd (hagree hsql) hne⟩
        · rw [Option.filter_some, hsql] at htable
          rw [Option.filter_some, decide_eq_true hlive] at hmemory
          refine ⟨?_, fun _ => ⟨t, token, rfl, hmemory, htable, hlate, hlive⟩⟩
          intro _ h
          cases htable.symm.trans h

/-- A token that was set after a second is still live in both stores when a day has passed. -/
theorem resets_compared_day :
    let start : Clock := Clock.atMs 0
    let email := "alice@example.com"
    let calls : List (Nat × ResetCall) :=
      [(Clock.second, .set " Alice@example.com" "a"), (Clock.day, .get email)]
    let asked (s : Store) :=
      ((s.afterCalls start (calls.take 1)).getReset (start.pass Clock.day) email).1
    calls.Pairwise (·.1 ≤ ·.1) ∧
    asked (memory {}) = .ok (some "a") ∧ asked (sql {}) = asked (memory {}) := by
  intro start email calls asked
  have hcalls : calls.Pairwise (·.1 ≤ ·.1) := by decide
  have hstart : 0 ≤ start.wallNanos := by decide
  have haccepts : ({} : Database).Accepts := Database.accepts_of_no_refusals rfl
  have compared := resets_compared hstart (m := {}) rfl rfl rfl haccepts hcalls (n := 1) rfl
  have hnormal : normalizeEmail email = email := by decide +kernel
  have hsame : normalizeEmail " Alice@example.com" = email := by decide +kernel
  have hchanges : (ResetCall.set " Alice@example.com" "a").changes email = true := by
    rw [ResetCall.changes, hsame, hnormal, beq_self_eq_true]
  have hlatest : latestSet email (calls.take 1) = some (Clock.second, "a") := by
    refine (latestSet_concat email [] Clock.second _).trans ?_
    rw [if_pos hchanges]
    rfl
  have hwhole : ∀ t e token, (t, ResetCall.set e token) ∈ calls.take 1 → (start.pass t).Whole := by
    intro t e token hset
    obtain ⟨rfl, -⟩ := Prod.mk.inj (List.mem_singleton.mp hset)
    show (0 + Clock.second) % Clock.second = 0
    rw [Nat.zero_add, Nat.mod_self]
  refine ⟨hcalls, compared.1.trans ?_, compared.2.1 hwhole⟩
  rw [hlatest]
  rfl

end Store

end Foreman
