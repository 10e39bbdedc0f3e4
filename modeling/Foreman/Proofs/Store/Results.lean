/-
What a store has recorded.

Both stores count, and what they count can be looked at in one way: so many results
for each provider, and so many for each requester.  In memory an account is counted
under its id, in a database by the text of it, which comes to the same because
different ids have different texts.

`exists_tallied` and `recordWork_of_ownerless` say all that recording does.  In a
database it takes two statements, and either may be refused; a store that `Records`
is one in which none is.
-/
import Foreman.Proofs.Account
import Foreman.Proofs.Store.Statement

namespace Foreman

namespace Database

/-! ### The two statements of a recording -/

/-- The row of a result. -/
def rowOf (event : WorkEvent) (p : UserId) : WorkRow where
  providerId := p.text
  requesterId := event.requesterId.text
  workerKey := event.workerKey.text
  hash := event.result.hash
  difficultyMultiplier := event.result.difficultyMultiplier

/-- Adds the row of a result. -/
def insertWork (row : WorkRow) (db : Database) : Except StoreError Unit × Database :=
  db.execute .insertWork fun d => d.work.map fun rows =>
    ((), { d with work := some (rows ++ [row]) })

theorem recordWork_of_owner {event : WorkEvent} {p : UserId}
    (howner : event.workerKey.owner? = some p) (db : Database) :
    db.recordWork event = match db.insertWork (rowOf event p) with
      | (.error e, db) => (.error e, db)
      | (.ok _, db) => db.countWork p.text event.requesterId.text := by
  rw [recordWork, howner]
  rfl

theorem insertWork_of_effect {db : Database} {rows : List WorkRow} (hrefused : ¬ db.Refuses)
    (hrows : db.work = some rows) (row : WorkRow) :
    db.insertWork row = (.ok (), { db.sent with work := some (rows ++ [row]) }) := by
  refine execute_of_effect hrefused ?_
  have hsent : db.sent.work = some rows := hrows
  rw [hsent]
  rfl

end Database

namespace Store

/-! ### Counts -/

/-- The results that are credited to a provider. -/
def results (p : UserId) : Store → Nat
  | memory m => m.byProvider.get p
  | sql db => (db.work.getD []).countP (·.providerId == p.text)

/-- The results that were delivered to a requester. -/
def requests (r : UserId) : Store → Nat
  | memory m => m.byRequester.get r
  | sql db => (db.work.getD []).countP (·.requesterId == r.text)

/-- Results can be recorded: there is a table for them, and no statement is refused. -/
def Records : Store → Prop
  | memory _ => True
  | sql db => db.work.isSome = true ∧ db.Accepts

/-- Results can be recorded, and none has been. -/
def Fresh (s : Store) : Prop := s.Records ∧ ∀ p, s.results p = 0

theorem fresh_memory {m : MemoryStore} (h : m.byProvider = []) : (memory m).Fresh :=
  ⟨trivial, fun p => by rw [results, h]; rfl⟩

/-! ### Recording -/

/-- Recording an event credits one result to `p` and one to its requester, and nothing to anybody
else, and answers with the two new counts. -/
structure Tallied (e : WorkEvent) (p : UserId) (s s' : Store) : Prop where
  answer : s.recordWork e = (.ok ⟨s.results p + 1, s.requests e.requesterId + 1⟩, s')
  records : s'.Records
  results : ∀ q, s'.results q = s.results q + if p = q then 1 else 0
  requests : ∀ r, s'.requests r = s.requests r + if e.requesterId = r then 1 else 0

theorem tallied_memory (m : MemoryStore) {e : WorkEvent} {p : UserId}
    (ho : e.workerKey.owner? = some p) :
    Tallied e p (memory m) (memory { m with
      byProvider := m.byProvider.bump p
      byRequester := m.byRequester.bump e.requesterId }) where
  answer := by
    have hprovider : (m.byProvider.bump p).get p = m.byProvider.get p + 1 := by
      rw [Counts.get_bump, if_pos rfl]
    have hrequester : (m.byRequester.bump e.requesterId).get e.requesterId =
        m.byRequester.get e.requesterId + 1 := by
      rw [Counts.get_bump, if_pos rfl]
    simp only [recordWork, MemoryStore.recordWork, ho, hprovider, hrequester, Store.results,
      Store.requests]
  records := trivial
  results q := Counts.get_bump m.byProvider p q
  requests r := Counts.get_bump m.byRequester e.requesterId r

/-- One more row counts for the account whose text it holds, and for no other. -/
theorem countP_text (column : WorkRow → String) (rows : List WorkRow) {row : WorkRow} {p : UserId}
    (hp : column row = p.text) (q : UserId) :
    (rows ++ [row]).countP (fun x => column x == q.text) =
      rows.countP (fun x => column x == q.text) + if p = q then 1 else 0 := by
  rw [List.countP_append, List.countP_singleton, hp]
  by_cases h : p = q
  · simp [h]
  · have htext : p.text ≠ q.text := fun he => h (UserId.text_injective he)
    simp [h, htext]

theorem recordWork_eq (db : Database) (e : WorkEvent) :
    (sql db).recordWork e = ((db.recordWork e).1, sql (db.recordWork e).2) := rfl

theorem tallied_sql {db : Database} (ok : (sql db).Records) {e : WorkEvent} {p : UserId}
    (ho : e.workerKey.owner? = some p) : ∃ s', Tallied e p (sql db) s' := by
  obtain ⟨hwork, haccepts⟩ := ok
  obtain ⟨rows, hrows⟩ := Option.isSome_iff_exists.mp hwork
  let row : WorkRow := Database.rowOf e p
  let inserted : Database := { db.sent with work := some (rows ++ [row]) }
  have hinserted : inserted.Accepts := Database.accepts_drop haccepts
  have hprovider (q : UserId) : (rows ++ [row]).countP (·.providerId == q.text) =
      (sql db).results q + if p = q then 1 else 0 := by
    rw [countP_text (·.providerId) rows rfl q, results, hrows]
    rfl
  have hrequester (r : UserId) : (rows ++ [row]).countP (·.requesterId == r.text) =
      (sql db).requests r + if e.requesterId = r then 1 else 0 := by
    rw [countP_text (·.requesterId) rows rfl r, requests, hrows]
    rfl
  have hinsert : db.insertWork row = (.ok (), inserted) :=
    Database.insertWork_of_effect (Database.not_refuses_of_accepts haccepts) hrows row
  have hcount : inserted.countWork row.providerId row.requesterId =
      (.ok ⟨(sql db).results p + 1, (sql db).requests e.requesterId + 1⟩, inserted.sent) := by
    have hp := hprovider p
    have hr := hrequester e.requesterId
    rw [if_pos rfl] at hp hr
    rw [← hp, ← hr]
    exact Database.query_of_accepts hinserted .countWork rfl
  refine ⟨sql inserted.sent, ?_, ⟨rfl, Database.accepts_drop hinserted⟩, hprovider, hrequester⟩
  have hrecord : db.recordWork e = inserted.countWork row.providerId row.requesterId := by
    rw [Database.recordWork_of_owner ho, hinsert]
    rfl
  rw [recordWork_eq, hrecord, hcount]

/-- **A result of an account is credited to it, and to the requester.** -/
theorem exists_tallied {s : Store} (ok : s.Records) {e : WorkEvent} {p : UserId}
    (ho : e.workerKey.owner? = some p) : ∃ s', Tallied e p s s' := by
  cases s with
  | memory m => exact ⟨_, tallied_memory m ho⟩
  | sql db => exact tallied_sql ok ho

/-- Recording an event credits one result to `p` and nothing to anybody else, and answers with
the new count. -/
def Credits (e : WorkEvent) (p : UserId) (s : Store) : Prop :=
  ∃ n s', s.recordWork e = (.ok ⟨s.results p + 1, n⟩, s') ∧ s'.Records ∧
    ∀ q, s'.results q = s.results q + if p = q then 1 else 0

/-- **A result of an account is credited to it.** -/
theorem recordWork_of_owner {s : Store} (ok : s.Records) {e : WorkEvent} {p : UserId}
    (ho : e.workerKey.owner? = some p) : s.Credits e p := by
  obtain ⟨s', tallied⟩ := exists_tallied ok ho
  exact ⟨_, s', tallied.answer, tallied.records, tallied.results⟩

/-- **A result of nobody is refused, and changes nothing.** -/
theorem recordWork_of_ownerless {e : WorkEvent} (ho : e.workerKey.owner? = none) (s : Store) :
    s.recordWork e = (.error (.noOwner e.workerKey), s) := by
  cases s with
  | memory m => simp only [recordWork, MemoryStore.recordWork, ho]
  | sql db =>
    rw [recordWork_eq]
    simp only [Database.recordWork, ho]

end Store

end Foreman
