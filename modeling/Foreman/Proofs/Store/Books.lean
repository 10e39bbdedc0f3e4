/-
What a store knows of the results that it has recorded, for the one question that is
asked of it: how many a provider has.

Of a result only the key under which it came in matters to this.  `books_recordWork` says
that recording goes by the key alone, for a store in memory and for a database whose
statements may be refused, and then whatever holds of the books holds of the store.
-/
import Foreman.Proofs.Store.Results

namespace Foreman.Store

/-- The results of the providers. -/
inductive Books where
  | memory (counts : Counts UserId)
  /-- The provider of each result, if there is a table, and which statements will be refused. -/
  | sql (providers : Option (List String)) (refusals : List Bool)

/-- What a store knows of the results of the providers. -/
def books : Store → Books
  | memory m => .memory m.byProvider
  | sql db => .sql (db.work.map (·.map (·.providerId))) db.refusals

namespace Books

/-- The results of a provider. -/
def results (p : UserId) : Books → Nat
  | memory counts => counts.get p
  | sql providers _ => (providers.getD []).count p.text

/-- A result comes in under a key: the new number of results of its provider, if it becomes known,
and the new books. -/
def record (key : WorkerKey) : Books → Option Nat × Books
  | memory counts =>
    match key.owner? with
    | none => (none, memory counts)
    | some p => (some ((counts.bump p).get p), memory (counts.bump p))
  | sql providers refusals =>
    match key.owner? with
    | none => (none, sql providers refusals)
    | some p =>
      if refusals.head?.getD false then (none, sql providers (refusals.drop 1))
      else match providers with
        | none => (none, sql none (refusals.drop 1))
        | some rows =>
          (if (refusals.drop 1).head?.getD false then none
            else some ((rows ++ [p.text]).count p.text),
            sql (some (rows ++ [p.text])) ((refusals.drop 1).drop 1))

end Books

theorem count_providers (rows : List WorkRow) (text : String) :
    (rows.map (·.providerId)).count text = rows.countP (·.providerId == text) := by
  rw [List.count, List.countP_map]
  rfl

theorem results_eq (p : UserId) (s : Store) : s.results p = s.books.results p := by
  cases s with
  | memory m => rfl
  | sql db =>
    cases hwork : db.work with
    | none => simp [results, books, Books.results, hwork]
    | some rows =>
      simp only [results, books, Books.results, hwork, Option.map_some, Option.getD_some,
        count_providers]

/-- To count is to be refused or to count the rows, and changes no table. -/
theorem countWork_eq {db : Database} {rows : List WorkRow} (h : db.work = some rows)
    (provider requester : String) :
    db.countWork provider requester =
      (if db.refusals.head?.getD false then .error (.statement .countWork)
        else .ok ⟨rows.countP (·.providerId == provider), rows.countP (·.requesterId == requester)⟩,
        db.sent) := by
  obtain ⟨users, resets, serviceTokens, work, refusals⟩ := db
  obtain rfl : work = some rows := h
  unfold Database.countWork Database.query Database.execute
  dsimp only
  split <;> rfl

/-- **Recording goes by the key of a result alone.** -/
theorem books_recordWork (s : Store) (e : WorkEvent) :
    ((s.recordWork e).1.toOption.map (·.providerResults), (s.recordWork e).2.books) =
      s.books.record e.workerKey := by
  cases s with
  | memory m =>
    simp only [recordWork, MemoryStore.recordWork, books, Books.record]
    cases e.workerKey.owner? <;> rfl
  | sql db =>
    rw [recordWork_eq]
    simp only [Database.recordWork, books, Books.record]
    cases e.workerKey.owner? with
    | none => rfl
    | some p =>
      dsimp only
      unfold Database.execute
      by_cases hrefused : db.refusals.head?.getD false = true
      · rw [if_pos hrefused, if_pos hrefused]
        rfl
      · rw [if_neg hrefused, if_neg hrefused]
        cases hwork : db.work with
        | none => rfl
        | some rows =>
          simp only [Option.map_some]
          rw [countWork_eq rfl]
          by_cases hagain : (db.refusals.drop 1).head?.getD false = true
          · rw [if_pos hagain, if_pos hagain]
            simp [Except.toOption, Database.sent]
          · rw [if_neg hagain, if_neg hagain]
            simp [Except.toOption, Database.sent, count_providers]

/-- A result counts for the owner of its key, once if at all, and for nobody else; it does count if
the new number becomes known. -/
theorem results_record {key : WorkerKey} {p : UserId} (ho : key.owner? = some p) (b : Books) :
    ∃ n, n ≤ 1 ∧ (∀ q, (b.record key).2.results q = b.results q + if p = q then n else 0) ∧
      ((b.record key).1.isSome → n = 1) := by
  have htext (q : UserId) : [p.text].count q.text = if p = q then 1 else 0 := by
    by_cases h : p = q
    · simp [h]
    · have hne : p.text ≠ q.text := fun he => h (UserId.text_injective he)
      simp [h, hne]
  cases b with
  | memory counts =>
    refine ⟨1, Nat.le_refl 1, fun q => ?_, fun _ => rfl⟩
    simp only [Books.record, ho, Books.results, Counts.get_bump]
  | sql providers refusals =>
    simp only [Books.record, ho]
    split
    · exact ⟨0, Nat.zero_le 1, fun q => by simp [Books.results], by simp⟩
    · cases providers with
      | none => exact ⟨0, Nat.zero_le 1, fun q => by simp [Books.results], by simp⟩
      | some rows =>
        refine ⟨1, Nat.le_refl 1, fun q => ?_, fun _ => rfl⟩
        simp only [Books.results, Option.getD_some, List.count_append, htext]

end Foreman.Store
