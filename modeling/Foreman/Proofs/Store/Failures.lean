/-
What an operation leaves of the tables when it fails.

A statement takes effect entirely or not at all, but setting a reset token takes two of them and
so does recording a result.  A failure of the first one leaves the tables as they were.  When the
second one fails the first has had its effect: the old tokens are gone and no new one is there, or
the row of the result is there and nobody was told its number.

Nothing else is possible, whatever the tables hold and whichever statements are refused, and a
missing table makes the first statement fail already.  What comes after a result that could not be
counted is answered as if it had been.
-/
import Foreman.Payout
import Foreman.Proofs.Store.Resets
import Foreman.Proofs.Store.Tally

namespace Foreman

namespace Database

/-! ### Statements -/

/-- Nothing but what will be refused has changed. -/
def SameTables (db db' : Database) : Prop := db' = { db with refusals := db'.refusals }

theorem sameTables_refl (db : Database) : SameTables db db := rfl

theorem sameTables_sent (db : Database) : SameTables db db.sent := rfl

/-- What was read by a statement changes no table, be it answered or not. -/
theorem sameTables_query {α : Type} (s : Statement) (read : Database → Option α) (db : Database) :
    SameTables db (db.query s read).2 := by
  rw [query, execute_eq]
  split
  · exact sameTables_sent db
  · cases read db.sent with
    | none => exact sameTables_sent db
    | some a => exact sameTables_sent db

/-! ### Operations -/

/-- What is asked of a database. -/
inductive Operation where
  | identityById (id : UserId)
  | identityByEmail (email : String)
  | setReset (clock : Clock) (email token : String)
  | getReset (clock : Clock) (email : String)
  | deleteReset (email : String)
  | serviceTokenUser (token : String)
  | recordWork (event : WorkEvent)

/-- Whether an operation fails, and what it leaves. -/
def Operation.run (db : Database) : Operation → Except StoreError Unit × Database
  | identityById id => let r := db.identityById id; (r.1.map fun _ => (), r.2)
  | identityByEmail email => let r := db.identityByEmail email; (r.1.map fun _ => (), r.2)
  | setReset clock email token => db.setReset clock email token
  | getReset clock email => let r := db.getReset clock email; (r.1.map fun _ => (), r.2)
  | deleteReset email => let r := db.deleteReset email; (r.1.map fun _ => (), r.2)
  | serviceTokenUser token => let r := db.serviceTokenUser token; (r.1.map fun _ => (), r.2)
  | recordWork event => let r := db.recordWork event; (r.1.map fun _ => (), r.2)

theorem error_of_map {α : Type} {r : Except StoreError α} {e : StoreError}
    (h : (r.map fun _ => ()) = .error e) : r = .error e := by
  cases r with
  | error e' => exact congrArg Except.error (Except.error.inj h)
  | ok a => cases h

theorem sameTables_fetchIdentity (selects : UserRow → Bool) (db : Database) :
    SameTables db (db.fetchIdentity selects).2 := by
  have hquery := sameTables_query .selectUser (fun d => d.users.map (·.find? selects)) db
  unfold fetchIdentity
  generalize db.query .selectUser (fun d => d.users.map (·.find? selects)) = r at hquery
  obtain ⟨answer, db'⟩ := r
  cases answer with
  | error e => exact hquery
  | ok row =>
    cases row with
    | none => exact hquery
    | some row => exact hquery

/-! ### Setting a token -/

/-- The rows of the other emails. -/
def rowsOfOthers (email : String) (rows : List ResetRow) : List ResetRow :=
  rows.filter (·.email != normalizeEmail email)

/-- Setting a token fails before anything is done, or when the old tokens have been deleted. -/
theorem setReset_of_error {db : Database} {clock : Clock} {email token : String} {e : StoreError}
    (h : (db.setReset clock email token).1 = .error e) :
    e = .statement .deleteReset ∧ SameTables db (db.setReset clock email token).2 ∨
      e = .statement .insertReset ∧ db.sent.Refuses ∧ ∃ rows, db.resets = some rows ∧
        (db.setReset clock email token).2 =
          { db.sent.sent with resets := some (rowsOfOthers email rows) } := by
  cases hdelete : (db.deleteReset (normalizeEmail email)).1 with
  | error e' =>
    obtain ⟨hfailed, -⟩ := execute_of_error hdelete
    have hset : db.setReset clock email token = (.error (.statement .deleteReset), db.sent) := by
      rw [setReset, deleteReset, hfailed]
    rw [hset] at h ⊢
    exact .inl ⟨(Except.error.inj h).symm, sameTables_sent db⟩
  | ok found =>
    obtain ⟨db', heffect, hdone⟩ := execute_of_ok hdelete
    obtain ⟨rows, hrows, heq⟩ := Option.map_eq_some_iff.mp heffect
    obtain ⟨-, rfl⟩ := Prod.mk.inj heq
    rw [normalizeEmail_idem] at hdone
    have hset : db.setReset clock email token =
        Database.insertReset ⟨normalizeEmail email, token, clock.unixSeconds + resetLifetimeSeconds⟩
          { db.sent with resets := some (rowsOfOthers email rows) } := by
      rw [setReset, deleteReset, normalizeEmail_idem, hdone]
      rfl
    rw [hset] at h ⊢
    obtain ⟨hfailed, hrefused⟩ := execute_of_error h
    -- its table is there, or nothing could have been deleted from it
    have hrefused' : db.sent.Refuses := hrefused.resolve_right (Option.some_ne_none _)
    refine .inr ⟨?_, hrefused', rows, hrows, ?_⟩
    · rw [insertReset, hfailed] at h
      exact (Except.error.inj h).symm
    · rw [insertReset, hfailed]
      rfl

/-! ### Recording a result -/

/-- Recording fails before anything is done, or when the row of the result has been added. -/
theorem recordWork_of_error {db : Database} {event : WorkEvent} {e : StoreError}
    (h : (db.recordWork event).1 = .error e) :
    (e = .noOwner event.workerKey ∨ e = .statement .insertWork) ∧
        SameTables db (db.recordWork event).2 ∨
      e = .statement .countWork ∧ db.sent.Refuses ∧ ∃ p rows,
        event.workerKey.owner? = some p ∧ db.work = some rows ∧
        (db.recordWork event).2 = { db.sent.sent with work := some (rows ++ [rowOf event p]) } := by
  cases howner : event.workerKey.owner? with
  | none =>
    have hrecord : db.recordWork event = (.error (.noOwner event.workerKey), db) := by
      rw [recordWork, howner]
    rw [hrecord] at h ⊢
    exact .inl ⟨.inl (Except.error.inj h).symm, sameTables_refl db⟩
  | some p =>
    rw [recordWork_of_owner howner] at h ⊢
    cases hinsert : (db.insertWork (rowOf event p)).1 with
    | error e' =>
      obtain ⟨hfailed, -⟩ := execute_of_error hinsert
      rw [insertWork, hfailed] at h ⊢
      exact .inl ⟨.inr (Except.error.inj h).symm, sameTables_sent db⟩
    | ok u =>
      obtain ⟨db', heffect, hdone⟩ := execute_of_ok hinsert
      obtain ⟨rows, hrows, heq⟩ := Option.map_eq_some_iff.mp heffect
      obtain ⟨-, rfl⟩ := Prod.mk.inj heq
      rw [insertWork, hdone] at h ⊢
      dsimp only at h ⊢
      obtain ⟨hfailed, hrefused⟩ := execute_of_error h
      -- its table is there, since it has just got a row
      have hrefused' : db.sent.Refuses := hrefused.resolve_right (Option.some_ne_none _)
      refine .inr ⟨?_, hrefused', p, rows, rfl, hrows, ?_⟩
      · rw [countWork, query, hfailed] at h
        exact (Except.error.inj h).symm
      · rw [countWork, query, hfailed]
        rfl

/-- The database in which the next two statements go through. -/
def letThrough (db : Database) : Database :=
  { db with refusals := false :: false :: db.sent.sent.refusals }

/-- A result that could not be counted has left what it leaves when it is counted. -/
theorem recordWork_letThrough {db : Database} {event : WorkEvent} {p : UserId}
    {rows : List WorkRow} (howner : event.workerKey.owner? = some p) (hrows : db.work = some rows) :
    ∃ tally, db.letThrough.recordWork event =
      (.ok tally, { db.sent.sent with work := some (rows ++ [rowOf event p]) }) := by
  let inserted : Database :=
    { db.letThrough.sent with work := some (rows ++ [rowOf event p]) }
  have hgranted : ¬ db.letThrough.Refuses := Bool.false_ne_true
  have hinsert : db.letThrough.insertWork (rowOf event p) = (.ok (), inserted) :=
    insertWork_of_effect hgranted hrows _
  have hcount : ∃ tally, inserted.countWork p.text event.requesterId.text =
      (.ok tally, inserted.sent) := by
    rw [countWork, query]
    exact ⟨_, execute_of_effect Bool.false_ne_true rfl⟩
  rw [recordWork_of_owner howner, hinsert]
  exact hcount

/-! ### What is left -/

/-- An operation that fails leaves the tables as they were, unless it is its second statement that
is refused. -/
theorem sameTables_of_error {db : Database} {op : Operation} {e : StoreError}
    (h : (op.run db).1 = .error e) : SameTables db (op.run db).2 ∨
      db.sent.Refuses ∧ (e = .statement .insertReset ∨ e = .statement .countWork) := by
  cases op with
  | identityById id => exact .inl (sameTables_fetchIdentity _ db)
  | identityByEmail email => exact .inl (sameTables_fetchIdentity _ db)
  | setReset clock email token =>
    rcases setReset_of_error h with ⟨-, hsame⟩ | ⟨he, hrefused, -⟩
    · exact .inl hsame
    · exact .inr ⟨hrefused, .inl he⟩
  | getReset clock email =>
    refine .inl ?_
    show SameTables db (db.getReset clock email).2
    exact sameTables_query .selectReset _ db
  | deleteReset email =>
    obtain ⟨hfailed, -⟩ := execute_of_error (error_of_map h)
    refine .inl ?_
    show SameTables db (db.deleteReset email).2
    rw [deleteReset, hfailed]
    exact sameTables_sent db
  | serviceTokenUser token =>
    refine .inl ?_
    show SameTables db (db.serviceTokenUser token).2
    exact sameTables_query .selectServiceToken _ db
  | recordWork event =>
    rcases recordWork_of_error (error_of_map h) with ⟨-, hsame⟩ | ⟨he, hrefused, -⟩
    · exact .inl hsame
    · exact .inr ⟨hrefused, .inr he⟩

/-- **What a failed operation leaves.**  Whatever the tables hold, and whichever of the next
statements are refused,

  * an operation that fails leaves the tables as they were, unless its second statement is refused.
    Missing tables alone never make it fail half way;
  * a token that could not be inserted has taken the place of the old ones all the same: its email
    has no token any more, and every other email has what it had;
  * a result that could not be counted is there all the same.  The database is the one in which
    the recording went through, so that whatever comes after is answered as if it had, and its
    provider has one result more. -/
theorem failed_operation_leaves (db : Database) :
    (∀ (op : Operation) (e : StoreError), (op.run db).1 = .error e →
      SameTables db (op.run db).2 ∨
        db.sent.Refuses ∧ (e = .statement .insertReset ∨ e = .statement .countWork)) ∧
    (∀ (clock : Clock) (email token : String),
      (db.setReset clock email token).1 = .error (.statement .insertReset) →
      let after := (db.setReset clock email token).2
      SameTables { db with resets := after.resets } after ∧
      ∀ (now : Clock) (email' : String), (Store.sql after).live now email' =
        if normalizeEmail email = normalizeEmail email' then none
        else (Store.sql db).live now email') ∧
    ∀ event : WorkEvent, (db.recordWork event).1 = .error (.statement .countWork) →
      let after := (db.recordWork event).2
      (∃ tally, db.letThrough.recordWork event = (.ok tally, after)) ∧
      ∃ p, event.workerKey.owner? = some p ∧
        (Store.sql after).results p = (Store.sql db).results p + 1 := by
  refine ⟨fun op e => sameTables_of_error, ?_, ?_⟩
  · intro clock email token h after
    obtain ⟨hother, -⟩ | ⟨-, -, rows, hrows, hafter⟩ := setReset_of_error h
    · cases hother
    · have hafter' : after = { db.sent.sent with resets := some (rowsOfOthers email rows) } := hafter
      rw [hafter']
      refine ⟨rfl, fun now email' => ?_⟩
      rw [Store.live, Store.live, hrows, Option.getD_some, Option.getD_some, rowsOfOthers,
        Store.find?_rows_deleted]
      split <;> rfl
  · intro event h after
    obtain ⟨hother | hother, -⟩ | ⟨-, -, p, rows, howner, hrows, hafter⟩ := recordWork_of_error h
    · cases hother
    · cases hother
    · have hafter' : after = { db.sent.sent with work := some (rows ++ [rowOf event p]) } := hafter
      rw [hafter']
      refine ⟨recordWork_letThrough howner hrows, p, howner, ?_⟩
      rw [Store.results, Store.results, hrows, Option.getD_some, Option.getD_some,
        Store.countP_text (·.providerId) rows rfl p, if_pos rfl]

/-- Bob's token is lost when the new one cannot be inserted. -/
example :
    let now : Clock := .atMs 0
    let email := "bob@example.com"
    let db : Database := { resets := some [⟨email, "old", 1⟩], refusals := [false, true] }
    let (answer, after) := db.setReset now email "new"
    answer = .error (.statement .insertReset) ∧ (Store.sql db).live now email = some "old" ∧
      (Store.sql after).live now email = none := by
  intro now email db
  decide +kernel

/-- Of three results the second one is not counted when it comes, so the count is never two when it
is asked for, and every second result earns nothing. -/
example :
    let event : WorkEvent :=
      .ofResult ⟨"00000000-0000-0000-0000-000000000001:0"⟩ ⟨"", ⟨2⟩, "a", "", 1⟩
    let everySecond : Payout := ⟨2⟩
    let paid (db : Database) (es : List WorkEvent) : List (Option Bool) :=
      ((Store.sql db).answers es).map (·.toOption.map everySecond.pays)
    paid { refusals := [false, false, false, true] } [event, event, event] =
        [some false, none, some false] ∧
      paid {} [event, event] = [some false, some true] := by
  intro event everySecond paid
  decide +kernel

end Database

end Foreman
