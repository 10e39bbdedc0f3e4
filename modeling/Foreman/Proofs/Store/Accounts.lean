/-
Who is found in a store.

The same accounts can be kept in memory and in a table, and both are asked by id and by
email.  By id they answer alike, because a row holds the text of the id and different
ids have different texts.

By email they do not.  The email that is asked for is normalized by both.  The emails
that are stored are normalized in memory, while in a table only their case is lowered,
so an account whose stored email has blanks around it is found in memory and not in the
table.  `lookups_compared` says that nothing else can happen.
-/
import Mathlib.Data.List.Nodup
import Foreman.Proofs.Account
import Foreman.Proofs.Store.Statement

namespace Foreman

open Text

/-! ### Accounts and rows -/

theorem UserType.parse_name (kind : UserType) : UserType.parse kind.name = .ok kind := by
  cases kind <;> decide +kernel

/-- The row of an account is read as that account. -/
theorem Identity.ofRow_toRow (who : Identity) : Identity.ofRow who.toRow = .ok who := by
  simp only [ofRow, toRow, UserId.parse_text, UserType.parse_name]

/-! ### Loading -/

namespace MemoryStore

/-- The store with accounts added, one after the other. -/
def load (accounts : List Identity) (m : MemoryStore) : MemoryStore :=
  accounts.foldl (fun m who => m.upsert who) m

/-- An account with a new id replaces none. -/
theorem identities_upsert {m : MemoryStore} {who : Identity} (h : ∀ i ∈ m.identities, i.id ≠ who.id) :
    (m.upsert who).identities = m.identities ++ [who] := by
  have hnone : m.identities.any (·.id == who.id) = false := by
    rw [List.any_eq_false]
    intro i hi
    simpa using h i hi
  simp only [upsert, hnone]
  rfl

theorem identities_load (accounts : List Identity) :
    ∀ m : MemoryStore, ((m.identities ++ accounts).map (·.id)).Nodup →
      (m.load accounts).identities = m.identities ++ accounts := by
  induction accounts with
  | nil => intro m _; exact (List.append_nil _).symm
  | cons who rest ih =>
      intro m hids
      have hnew : ∀ i ∈ m.identities, i.id ≠ who.id := by
        intro i hi heq
        rw [List.map_append, List.map_cons] at hids
        exact (List.nodup_append.mp hids).2.2 i.id (List.mem_map_of_mem hi) who.id
          List.mem_cons_self heq
      have hupsert := identities_upsert hnew
      show ((m.upsert who).load rest).identities = m.identities ++ who :: rest
      rw [ih (m.upsert who) (by rw [hupsert, List.append_assoc]; exact hids), hupsert,
        List.append_assoc]
      rfl

end MemoryStore

namespace Database

/-- The database with the rows of accounts inserted, one after the other. -/
def load (accounts : List Identity) (db : Database) : Database :=
  accounts.foldl (fun db who => db.insertUser who.toRow) db

theorem load_eq (accounts : List Identity) :
    ∀ db : Database, db.load accounts =
      { db with users := db.users.map (· ++ accounts.map Identity.toRow) } := by
  induction accounts with
  | nil => intro db; cases h : db.users <;> simp [load, ← h]
  | cons who rest ih =>
      intro db
      show (db.insertUser who.toRow).load rest = _
      rw [ih, insertUser]
      cases db.users <;> simp

/-- A row that is selected is answered with its account. -/
theorem fetchIdentity_of_accepts {db : Database} (h : db.Accepts) {accounts : List Identity}
    (husers : db.users = some (accounts.map Identity.toRow)) (selects : UserRow → Bool) :
    (db.fetchIdentity selects).1 = .ok (accounts.find? fun who => selects who.toRow) := by
  have hquery : db.query .selectUser (fun d => d.users.map (·.find? selects)) =
      (.ok ((accounts.find? fun who => selects who.toRow).map Identity.toRow), db.sent) := by
    refine query_of_accepts h .selectUser ?_
    show db.users.map (·.find? selects) = _
    rw [husers, Option.map_some, List.find?_map]
    rfl
  rw [fetchIdentity, hquery]
  cases accounts.find? fun who => selects who.toRow with
  | none => rfl
  | some who =>
      dsimp only [Option.map_some]
      rw [Identity.ofRow_toRow]
      rfl

end Database

/-! ### Lookups -/

/-- Where at most one entry satisfies `p`, a further condition is a condition on that entry. -/
theorem find?_and {α : Type} (t p : α → Bool) :
    ∀ l : List α, l.Pairwise (fun a b => p a = true → p b = false) →
      l.find? (fun a => t a && p a) = (l.find? p).filter t := by
  intro l
  induction l with
  | nil => intro _; rfl
  | cons a rest ih =>
      intro h
      obtain ⟨halone, hrest⟩ := List.pairwise_cons.mp h
      cases hp : p a with
      | false => simp [hp, ih hrest]
      | true =>
          have hnone : rest.find? (fun b => t b && p b) = none := by
            rw [List.find?_eq_none]
            intro b hb
            simp [halone b hb hp]
          cases ht : t a <;> simp [hp, ht, hnone, Option.filter]

/-- The stored email is what it is without blanks around it. -/
def Identity.emailTrimmed (who : Identity) : Bool := trim who.email == who.email

namespace Store

variable {accounts : List Identity}

theorem identityById_memory (m : MemoryStore) (id : UserId) :
    ((memory m).identityById id).1 = .ok (m.identities.find? (·.id == id)) := rfl

theorem identityByEmail_memory (m : MemoryStore) (email : String) :
    ((memory m).identityByEmail email).1 =
      .ok (m.identities.find? fun who => normalizeEmail who.email == normalizeEmail email) := rfl

theorem identityById_sql {db : Database} (h : db.Accepts)
    (husers : db.users = some (accounts.map Identity.toRow)) (id : UserId) :
    ((sql db).identityById id).1 = .ok (accounts.find? (·.id == id)) := by
  have htext : ∀ who : Identity, (who.id.text == id.text) = (who.id == id) := by
    intro who
    rw [Bool.eq_iff_iff, beq_iff_eq, beq_iff_eq]
    exact ⟨fun h => UserId.text_injective h, fun h => by rw [h]⟩
  show (db.identityById id).1 = _
  rw [Database.identityById, Database.fetchIdentity_of_accepts h husers]
  exact congrArg (fun p => Except.ok (accounts.find? p)) (funext htext)

theorem identityByEmail_sql {db : Database} (h : db.Accepts)
    (husers : db.users = some (accounts.map Identity.toRow))
    (hemails : (accounts.map fun who => normalizeEmail who.email).Nodup) (email : String) :
    ((sql db).identityByEmail email).1 =
      .ok ((accounts.find? fun who => normalizeEmail who.email == normalizeEmail email).filter
        Identity.emailTrimmed) := by
  have hcompare : ∀ who : Identity, (who.email.toLower == normalizeEmail email) =
      (who.emailTrimmed && (normalizeEmail who.email == normalizeEmail email)) := by
    intro who
    rw [Bool.eq_iff_iff, Bool.and_eq_true, beq_iff_eq, beq_iff_eq, Identity.emailTrimmed,
      beq_iff_eq, toLower_eq_normalizeEmail]
  have halone : accounts.Pairwise fun a b =>
      (normalizeEmail a.email == normalizeEmail email) = true →
        (normalizeEmail b.email == normalizeEmail email) = false := by
    refine (List.pairwise_map.mp hemails).imp ?_
    intro a b hne ha
    rw [beq_iff_eq] at ha
    rw [beq_eq_false_iff_ne]
    intro hb
    exact hne (ha.trans hb.symm)
  show (db.identityByEmail email).1 = _
  rw [Database.identityByEmail, Database.fetchIdentity_of_accepts h husers, ← find?_and _ _ _ halone]
  exact congrArg (fun p => Except.ok (accounts.find? p)) (funext hcompare)

/-- An account is found in memory by its own email. -/
theorem find?_own_email (hemails : (accounts.map fun who => normalizeEmail who.email).Nodup)
    {who : Identity} (hwho : who ∈ accounts) :
    accounts.find? (fun i => normalizeEmail i.email == normalizeEmail who.email) = some who := by
  cases hfind : accounts.find? (fun i => normalizeEmail i.email == normalizeEmail who.email) with
  | none => simpa using List.find?_eq_none.mp hfind who hwho
  | some i =>
      have hemail : normalizeEmail i.email = normalizeEmail who.email := by
        simpa using List.find?_some hfind
      rw [List.inj_on_of_nodup_map hemails (List.mem_of_find?_eq_some hfind) hwho hemail]

/-- **Accounts are found by id alike, and by email unless there are blanks around the stored
email.**  Accounts with different ids and different normalized emails are loaded into memory and
into a table.  Asked by id, both answer the same.  Asked by email, memory finds the account
whose normalized email is the normalized email asked for, and the table finds it as well if the
stored email is trimmed and nobody otherwise; so both always answer the same exactly if every
stored email is trimmed. -/
theorem lookups_compared (hids : (accounts.map (·.id)).Nodup)
    (hemails : (accounts.map fun who => normalizeEmail who.email).Nodup)
    {m : MemoryStore} (hm : m.identities = [])
    {db : Database} (hdb : db.users = some []) (haccepts : db.Accepts) :
    let inMemory := memory (m.load accounts)
    let inTable := sql (db.load accounts)
    (∀ id, (inMemory.identityById id).1 = .ok (accounts.find? (·.id == id)) ∧
      (inTable.identityById id).1 = (inMemory.identityById id).1) ∧
    (∀ email,
      let found := accounts.find? fun who => normalizeEmail who.email == normalizeEmail email
      (inMemory.identityByEmail email).1 = .ok found ∧
        (inTable.identityByEmail email).1 =
          .ok (found.filter fun who => trim who.email == who.email)) ∧
    ((∀ email, (inTable.identityByEmail email).1 = (inMemory.identityByEmail email).1) ↔
      ∀ who ∈ accounts, trim who.email = who.email) := by
  intro inMemory inTable
  have hmemory : (m.load accounts).identities = accounts := by
    have hload := MemoryStore.identities_load accounts m (by rw [hm]; exact hids)
    rw [hload, hm, List.nil_append]
  have htable : (db.load accounts).users = some (accounts.map Identity.toRow) := by
    rw [Database.load_eq, hdb]
    rfl
  have hready : (db.load accounts).Accepts := by
    rw [Database.load_eq]
    exact haccepts
  have hfound (email : String) : (inMemory.identityByEmail email).1 =
      .ok (accounts.find? fun who => normalizeEmail who.email == normalizeEmail email) := by
    rw [identityByEmail_memory, hmemory]
  have hfiltered := identityByEmail_sql hready htable hemails
  refine ⟨?_, ?_, ?_⟩
  · intro id
    rw [identityById_sql hready htable, identityById_memory, hmemory]
    exact ⟨rfl, rfl⟩
  · intro email
    exact ⟨hfound email, hfiltered email⟩
  · constructor
    · intro hsame who hwho
      have hown := hsame who.email
      rw [hfound, hfiltered, find?_own_email hemails hwho, Except.ok.injEq] at hown
      have htrimmed := (Option.filter_eq_some_iff.mp hown).2
      rwa [Identity.emailTrimmed, beq_iff_eq] at htrimmed
    · intro hall email
      rw [hfound, hfiltered]
      cases hfind : accounts.find? (fun who => normalizeEmail who.email == normalizeEmail email) with
      | none => rfl
      | some who =>
          have htrimmed : who.emailTrimmed = true := by
            rw [Identity.emailTrimmed, beq_iff_eq]
            exact hall who (List.mem_of_find?_eq_some hfind)
          rw [Option.filter_some, if_pos htrimmed]

/-- Two accounts, one of whose stored emails has a blank in front. -/
def pair : List Identity :=
  [⟨⟨1⟩, " alice@example.com", true, true, .requester⟩,
    ⟨⟨2⟩, "Bob@example.com", true, false, .provider⟩]

theorem lookups_compared_pair :
    (pair.map (·.id)).Nodup ∧ (pair.map fun who => normalizeEmail who.email).Nodup ∧
    (∀ id, ((sql (({} : Database).load pair)).identityById id).1 =
      ((memory (({} : MemoryStore).load pair)).identityById id).1) ∧
    ¬ ∀ email, ((sql (({} : Database).load pair)).identityByEmail email).1 =
      ((memory (({} : MemoryStore).load pair)).identityByEmail email).1 := by
  have hids : (pair.map (·.id)).Nodup := by decide
  have hemails : (pair.map fun who => normalizeEmail who.email).Nodup := by decide +kernel
  have haccepts : ({} : Database).Accepts := Database.accepts_of_no_refusals rfl
  refine ⟨hids, hemails, fun id => ((lookups_compared hids hemails rfl rfl haccepts).1 id).2, ?_⟩
  rw [(lookups_compared hids hemails rfl rfl haccepts).2.2]
  intro htrimmed
  exact absurd (htrimmed _ List.mem_cons_self) (by decide +kernel)

/-- The account of the email "alice@example.com" is found in memory and not in the table, if a
blank was stored in front of it. -/
theorem blank_hides_account :
    let who : Identity := ⟨⟨1⟩, " alice@example.com", true, true, .requester⟩
    ((memory (({} : MemoryStore).load [who])).identityByEmail "alice@example.com").1 =
      .ok (some who) ∧
    ((sql (({} : Database).load [who])).identityByEmail "alice@example.com").1 = .ok none := by
  intro who
  have hfound : [who].find? (fun i => normalizeEmail i.email == normalizeEmail "alice@example.com") =
      some who := List.find?_cons_of_pos (by decide +kernel)
  have huntrimmed : who.emailTrimmed = false := by decide +kernel
  have htable : (({} : Database).load [who]).users = some ([who].map Identity.toRow) := by
    rw [Database.load_eq]
    rfl
  refine ⟨?_, ?_⟩
  · rw [identityByEmail_memory, MemoryStore.identities_load [who] {} (List.nodup_singleton _)]
    exact congrArg Except.ok hfound
  · rw [identityByEmail_sql (Database.accepts_of_no_refusals rfl) htable (List.nodup_singleton _),
      hfound, Option.filter_some, if_neg (by rw [huntrimmed]; decide)]

end Store

end Foreman
