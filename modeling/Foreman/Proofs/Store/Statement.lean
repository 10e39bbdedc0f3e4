/-
Statements that are carried out, and statements that fail.

A statement that fails has no effect, whatever made it fail.  A database that `Accepts` refuses
none of the statements to come, so each of them has its effect, provided that its table is there,
and the database still accepts what comes after.
-/
import Foreman.Store

namespace Foreman.Database

/-- None of the next statements is refused. -/
def Accepts (db : Database) : Prop := ∀ b ∈ db.refusals, b = false

theorem accepts_of_no_refusals {db : Database} (h : db.refusals = []) : db.Accepts := by
  intro b hb
  rw [h] at hb
  exact absurd hb List.not_mem_nil

/-- The database once one statement more was sent to it. -/
def sent (db : Database) : Database := { db with refusals := db.refusals.drop 1 }

theorem accepts_drop {db : Database} (h : db.Accepts) :
    ∀ b ∈ db.refusals.drop 1, b = false := fun b hb => h b (List.mem_of_mem_drop hb)

/-- The next statement is refused. -/
def Refuses (db : Database) : Prop := db.refusals.head?.getD false = true

instance (db : Database) : Decidable db.Refuses := inferInstanceAs (Decidable (_ = true))

theorem not_refuses_of_accepts {db : Database} (h : db.Accepts) : ¬ db.Refuses := by
  rw [Refuses]
  cases hr : db.refusals with
  | nil => exact Bool.false_ne_true
  | cons b rest =>
    rw [h b (by rw [hr]; exact List.mem_cons_self)]
    exact Bool.false_ne_true

section Execute

variable {α : Type} {s : Statement} {effect : Database → Option (α × Database)} {db db' : Database}
  {a : α}

theorem execute_eq (s : Statement) (effect : Database → Option (α × Database)) (db : Database) :
    db.execute s effect =
      if db.Refuses then (.error (.statement s), db.sent)
      else match effect db.sent with
        | some (a, db') => (.ok a, db')
        | none => (.error (.statement s), db.sent) := rfl

/-- A statement that is not refused has its effect. -/
theorem execute_of_effect (hrefused : ¬ db.Refuses) (heffect : effect db.sent = some (a, db')) :
    db.execute s effect = (.ok a, db') := by
  rw [execute_eq, if_neg hrefused, heffect]

/-- **A statement that fails has no effect**: it was refused, or had none. -/
theorem execute_of_error {e : StoreError} (h : (db.execute s effect).1 = .error e) :
    db.execute s effect = (.error (.statement s), db.sent) ∧
      (db.Refuses ∨ effect db.sent = none) := by
  rw [execute_eq] at h ⊢
  by_cases hrefused : db.Refuses
  · rw [if_pos hrefused]
    exact ⟨rfl, .inl hrefused⟩
  · rw [if_neg hrefused] at h ⊢
    cases heffect : effect db.sent with
    | none => exact ⟨rfl, .inr rfl⟩
    | some x =>
      rw [heffect] at h
      cases h

/-- A statement that goes through has its effect. -/
theorem execute_of_ok (h : (db.execute s effect).1 = .ok a) :
    ∃ db', effect db.sent = some (a, db') ∧ db.execute s effect = (.ok a, db') := by
  rw [execute_eq] at h ⊢
  by_cases hrefused : db.Refuses
  · rw [if_pos hrefused] at h
    cases h
  · rw [if_neg hrefused] at h ⊢
    cases heffect : effect db.sent with
    | none =>
      rw [heffect] at h
      cases h
    | some x =>
      obtain ⟨b, db'⟩ := x
      rw [heffect] at h
      obtain rfl : b = a := Except.ok.inj h
      exact ⟨db', rfl, rfl⟩

theorem execute_of_accepts (h : db.Accepts) (s : Statement)
    {effect : Database → Option (α × Database)}
    (he : effect { db with refusals := db.refusals.drop 1 } = some (a, db')) :
    db.execute s effect = (.ok a, db') :=
  execute_of_effect (not_refuses_of_accepts h) he

end Execute

/-- A statement that reads answers, and leaves the tables as they are. -/
theorem query_of_accepts {α : Type} {db : Database} {a : α} (h : db.Accepts) (s : Statement)
    {read : Database → Option α} (hr : read db.sent = some a) :
    db.query s read = (.ok a, db.sent) := by
  refine execute_of_accepts h s ?_
  show (read db.sent).map (fun a => (a, db.sent)) = some (a, db.sent)
  rw [hr, Option.map_some]

/-- What a statement that reads has answered was read. -/
theorem read_of_query {α : Type} {db : Database} {a : α} {s : Statement}
    {read : Database → Option α} (h : (db.query s read).1 = .ok a) : read db.sent = some a := by
  obtain ⟨db', heffect, -⟩ := execute_of_ok h
  obtain ⟨b, hread, heq⟩ := Option.map_eq_some_iff.mp heffect
  obtain ⟨rfl, -⟩ := Prod.mk.inj heq
  exact hread

end Foreman.Database
