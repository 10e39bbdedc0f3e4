/-
Accounts whose ids are stored in another spelling.

A row of the table of accounts is read whatever the spelling of its id: in either case, with or
without hyphens, in braces, behind a mark, with blanks around it.  A lookup by email therefore
finds rows of every spelling.  A lookup by id compares the stored text with the one text in
which ids are printed, so of the same rows it finds only those that were stored as printed.

An id has one row, and that row alone decides: `identityById_of_mem` says what a lookup by id
makes of any row, and everything about found accounts, logins and service tokens is read off it.
-/
import Foreman.Proofs.Auth.PasswordChange

namespace Foreman

open Text

/-! ### Rows -/

/-- A table of accounts in order: every row is an account, and no two rows have the same id,
however it is spelled. -/
structure UserTable (rows : List UserRow) : Prop where
  readable : ∀ row ∈ rows, ∃ who, Identity.ofRow row = .ok who
  distinct : (rows.map fun row => UserId.parse row.id).Nodup

/-- The id of a row is stored as ids are printed. -/
def UserRow.IdPrinted (row : UserRow) : Prop := ∃ id : UserId, row.id = id.text

theorem Identity.parse_of_ofRow {row : UserRow} {who : Identity}
    (h : Identity.ofRow row = .ok who) : UserId.parse row.id = .ok who.id := by
  rw [ofRow] at h
  split at h
  · cases h
  · rename_i id hparse
    split at h
    · cases h
    · cases h
      exact hparse

/-- Of all printed ids a row can only hold that of its account. -/
theorem idPrinted_iff {row : UserRow} {who : Identity} (h : Identity.ofRow row = .ok who) :
    row.IdPrinted ↔ row.id = who.id.text := by
  constructor
  · rintro ⟨id, hid⟩
    have hparse := Identity.parse_of_ofRow h
    rw [hid, UserId.parse_text] at hparse
    rw [hid, Except.ok.inj hparse]
  · intro hid
    exact ⟨who.id, hid⟩

namespace Database

variable {db : Database} {rows : List UserRow}

/-- A row that is selected is answered with its account. -/
theorem fetchIdentity_of_readable (haccepts : db.Accepts) (hrows : db.users = some rows)
    (readable : ∀ row ∈ rows, ∃ who, Identity.ofRow row = .ok who) (selects : UserRow → Bool) :
    db.fetchIdentity selects =
      (.ok ((rows.find? selects).bind fun row => (Identity.ofRow row).toOption), db.sent) := by
  have hquery : db.query .selectUser (fun d => d.users.map (·.find? selects)) =
      (.ok (rows.find? selects), db.sent) := by
    refine query_of_accepts haccepts .selectUser ?_
    show db.users.map (·.find? selects) = _
    rw [hrows, Option.map_some]
  rw [fetchIdentity, hquery]
  cases hfind : rows.find? selects with
  | none => rfl
  | some row =>
      obtain ⟨who, hwho⟩ := readable row (List.mem_of_find?_eq_some hfind)
      dsimp only
      rw [hwho, Option.bind_some, hwho]
      rfl

end Database

namespace Store

variable {db : Database} {rows : List UserRow}

/-- Any two rows with the same id are one. -/
theorem row_unique (table : UserTable rows) {row row' : UserRow} (hrow : row ∈ rows)
    (hrow' : row' ∈ rows) (h : UserId.parse row'.id = UserId.parse row.id) : row' = row :=
  List.inj_on_of_nodup_map table.distinct hrow' hrow h

/-- **A row is found by its id exactly if the id is stored as it is printed.** -/
theorem identityById_of_mem (haccepts : db.Accepts) (hrows : db.users = some rows)
    (table : UserTable rows) {row : UserRow} (hrow : row ∈ rows) {who : Identity}
    (hwho : Identity.ofRow row = .ok who) :
    ((sql db).identityById who.id).1 = .ok (if row.id = who.id.text then some who else none) := by
  have hparse := Identity.parse_of_ofRow hwho
  -- whatever row is selected reads as this id, so it is this row
  have hown : ∀ row' ∈ rows, row'.id = who.id.text → row' = row := by
    intro row' hrow' hid
    apply row_unique table hrow hrow'
    rw [hid, UserId.parse_text, hparse]
  show (db.fetchIdentity fun row => row.id == who.id.text).1 = _
  rw [Database.fetchIdentity_of_readable haccepts hrows table.readable]
  by_cases hprinted : row.id = who.id.text
  · have hfind : rows.find? (fun row => row.id == who.id.text) = some row := by
      cases hfind : rows.find? (fun row => row.id == who.id.text) with
      | none => simpa [hprinted] using List.find?_eq_none.mp hfind row hrow
      | some row' =>
          have hid : row'.id = who.id.text := by simpa using List.find?_some hfind
          rw [hown row' (List.mem_of_find?_eq_some hfind) hid]
    rw [hfind, if_pos hprinted, Option.bind_some, hwho]
    rfl
  · have hfind : rows.find? (fun row => row.id == who.id.text) = none := by
      rw [List.find?_eq_none]
      intro row' hrow' hid
      obtain rfl := hown row' hrow' (beq_iff_eq.mp hid)
      exact hprinted (beq_iff_eq.mp hid)
    rw [hfind, if_neg hprinted]
    rfl

/-- An account that an email finds is that of the first row with the email. -/
theorem identityByEmail_eq_some (haccepts : db.Accepts) (hrows : db.users = some rows)
    (readable : ∀ row ∈ rows, ∃ who, Identity.ofRow row = .ok who) {email : String}
    {who : Identity} :
    ((sql db).identityByEmail email).1 = .ok (some who) ↔
      ∃ row, rows.find? (fun row => row.email.toLower == normalizeEmail email) = some row ∧
        Identity.ofRow row = .ok who := by
  have hfetch := Database.fetchIdentity_of_readable haccepts hrows readable
    fun row => row.email.toLower == normalizeEmail email
  have hanswer : ((sql db).identityByEmail email).1 = .ok
      ((rows.find? fun row => row.email.toLower == normalizeEmail email).bind
        fun row => (Identity.ofRow row).toOption) := congrArg Prod.fst hfetch
  rw [hanswer, Except.ok.injEq, Option.bind_eq_some_iff]
  refine exists_congr fun row => and_congr_right fun _ => ?_
  cases Identity.ofRow row with
  | error e => simp [Except.toOption]
  | ok i => simp [Except.toOption]

end Store

namespace Auth

/-- A service token that is configured and bound to an id is resolved to the account with it. -/
theorem resolve_of_bound {settings : Settings} {c : Collaborators} {now : Nat} {callerIp r : String}
    {user : String} {id : UserId} {found : Option Identity}
    (configured : serviceMark ++ r ∈ settings.serviceTokens)
    (bound : c.serviceTokenUser (serviceMark ++ r) = .ok (some user))
    (parsed : UserId.parse user = .ok id) (lookup : c.identityById id = .ok found) :
    (resolve settings c now callerIp (some (serviceMark ++ r))).outcome =
      .ok (callerOf .serviceToken found) := by
  rw [resolve, parse_service]
  dsimp only
  rw [resolveService, if_neg (not_not_intro configured), bound]
  dsimp only [Resolution.afterLookup]
  rw [parsed]
  dsimp only
  rw [lookup]
  rfl

end Auth

namespace Store

open Auth

/-- **Accounts that are found by email are found by id exactly if their ids are stored as they
are printed.**  In a table in order, the account that an email finds comes from the only row with
its id, and by that id it is found if the row holds the id as it is printed, and nobody otherwise.
So whoever logs in is reached through a service token that is bound to the id, however the
binding spells it, if the row holds the id as it is printed, and otherwise the token is good and
names nobody.  All accounts that are found by email are found by id exactly if all rows that an
email finds hold their ids as printed. -/
theorem lookups_agree_on_printed_ids {db : Database} {rows : List UserRow}
    (haccepts : db.Accepts) (hrows : db.users = some rows) (table : UserTable rows) :
    let s := sql db
    (∀ email who, (s.identityByEmail email).1 = .ok (some who) →
      ∃ row ∈ rows, Identity.ofRow row = .ok who ∧
        (∀ row' ∈ rows, UserId.parse row'.id = .ok who.id → row' = row) ∧
        ((s.identityByEmail email).2.identityById who.id).1 =
          .ok (if row.id = who.id.text then some who else none)) ∧
    (∀ settings clock callerIp token r user who,
      let outcome (header : String) := (resolve settings (s.collaborators clock)
        clock.unixSeconds callerIp (some header)).outcome
      outcome token = .ok (some ⟨who, .login⟩) →
      serviceMark ++ r ∈ settings.serviceTokens →
      (s.serviceTokenUser (serviceMark ++ r)).1 = .ok (some user) →
      UserId.parse user = .ok who.id →
      ∃ row ∈ rows, Identity.ofRow row = .ok who ∧ outcome (serviceMark ++ r) =
        .ok (if row.id = who.id.text then some ⟨who, .serviceToken⟩ else none)) ∧
    ((∀ email who, (s.identityByEmail email).1 = .ok (some who) →
        (s.identityById who.id).1 = .ok (some who)) ↔
      ∀ email row, rows.find? (fun row => row.email.toLower == normalizeEmail email) = some row →
        row.IdPrinted) := by
  intro s
  have hfound {email : String} {who : Identity}
      (h : (s.identityByEmail email).1 = .ok (some who)) :
      ∃ row ∈ rows, Identity.ofRow row = .ok who := by
    obtain ⟨row, hfind, hwho⟩ :=
      (identityByEmail_eq_some haccepts hrows table.readable).mp h
    exact ⟨row, List.mem_of_find?_eq_some hfind, hwho⟩
  refine ⟨?_, ?_, ?_⟩
  · intro email who h
    obtain ⟨row, hrow, hwho⟩ := hfound h
    refine ⟨row, hrow, hwho, ?_, ?_⟩
    · intro row' hrow' hparse
      apply row_unique table hrow hrow'
      rw [hparse, Identity.parse_of_ofRow hwho]
    · -- the lookup by email leaves the table as it was
      have hsent : (db.identityByEmail email).2 = db.sent := congrArg Prod.snd
        (Database.fetchIdentity_of_readable haccepts hrows table.readable _)
      show ((sql (db.identityByEmail email).2).identityById who.id).1 = _
      rw [hsent]
      have hready : db.sent.Accepts := Database.accepts_drop haccepts
      exact identityById_of_mem hready hrows table hrow hwho
  · intro settings clock callerIp token r user who outcome hlogin configured bound parsed
    obtain ⟨_, -, -, hnames⟩ := (resolve_login_of_store settings clock s callerIp).mp hlogin
    obtain ⟨row, hrow, hwho⟩ := hfound hnames.2
    refine ⟨row, hrow, hwho, ?_⟩
    have hlookup := identityById_of_mem haccepts hrows table hrow hwho
    show (resolve settings (s.collaborators clock) clock.unixSeconds callerIp
      (some (serviceMark ++ r))).outcome = _
    rw [resolve_of_bound configured bound parsed hlookup]
    by_cases hprinted : row.id = who.id.text
    · rw [if_pos hprinted, if_pos hprinted]
      rfl
    · rw [if_neg hprinted, if_neg hprinted]
      rfl
  · constructor
    · intro hall email row hfind
      have hrow := List.mem_of_find?_eq_some hfind
      obtain ⟨who, hwho⟩ := table.readable row hrow
      have hbyId := hall email who
        ((identityByEmail_eq_some haccepts hrows table.readable).mpr ⟨row, hfind, hwho⟩)
      rw [identityById_of_mem haccepts hrows table hrow hwho] at hbyId
      rw [idPrinted_iff hwho]
      by_contra hprinted
      rw [if_neg hprinted] at hbyId
      cases hbyId
    · intro hall email who h
      obtain ⟨row, hfind, hwho⟩ :=
        (identityByEmail_eq_some haccepts hrows table.readable).mp h
      rw [identityById_of_mem haccepts hrows table (List.mem_of_find?_eq_some hfind) hwho,
        if_pos ((idPrinted_iff hwho).mp (hall email row hfind))]

/-- Two rows, the first of which holds its id in capitals. -/
def capitalsFirst : List UserRow :=
  [⟨"6F2A7C1E-4B8D-4A53-9F0E-2D7B1C3A5E90", "alice@example.com", true, true, "REQUESTER"⟩,
    ⟨"01890a5d-ac96-774b-bcce-b302099a8057", "bob@example.com", true, true, "REQUESTER"⟩]

/-- The account of the first row. -/
def capitalsOwner : Identity :=
  ⟨⟨0x6f2a7c1e4b8d4a539f0e2d7b1c3a5e90⟩, "alice@example.com", true, true, .requester⟩

/-- The account of the second row. -/
def printedOwner : Identity :=
  ⟨⟨0x01890a5dac96774bbcceb302099a8057⟩, "bob@example.com", true, true, .requester⟩

theorem userTable_capitalsFirst : UserTable capitalsFirst where
  readable := by
    simp only [capitalsFirst, List.forall_mem_cons]
    exact ⟨⟨capitalsOwner, by decide +kernel⟩, ⟨printedOwner, by decide +kernel⟩,
      List.forall_mem_nil _⟩
  distinct := by decide +kernel

/-- Each account has its row. -/
theorem row_of_capitalsFirst {row : UserRow} (h : row ∈ capitalsFirst) :
    (Identity.ofRow row = .ok capitalsOwner → row.id ≠ capitalsOwner.id.text) ∧
      (Identity.ofRow row = .ok printedOwner → row.id = printedOwner.id.text) := by
  revert row
  simp only [capitalsFirst, List.forall_mem_cons]
  exact ⟨by decide +kernel, by decide +kernel, by simp⟩

/-- Whoever has the first row logs in and is not found by id; whoever has the second row is. -/
theorem lookups_agree_on_printed_ids_capitals :
    let db : Database := { users := some capitalsFirst,
                           serviceTokens := some [⟨"service:rig", capitalsOwner.id.text⟩] }
    let settings : Settings := { secret := some ⟨"secret"⟩, serviceTokens := ["service:rig"] }
    let token := Token.issue "secret" capitalsOwner.email 0 3600
    let outcome (header : String) :=
      (resolve settings ((sql db).collaborators (.atMs 0)) 0 "" (some header)).outcome
    let afterEmail (who : Identity) := (sql db).identityByEmail who.email
    db.Accepts ∧ db.users = some capitalsFirst ∧ UserTable capitalsFirst ∧
    (afterEmail capitalsOwner).1 = .ok (some capitalsOwner) ∧
    ((afterEmail capitalsOwner).2.identityById capitalsOwner.id).1 = .ok none ∧
    outcome token = .ok (some ⟨capitalsOwner, .login⟩) ∧ outcome "service:rig" = .ok none ∧
    (afterEmail printedOwner).1 = .ok (some printedOwner) ∧
    ((afterEmail printedOwner).2.identityById printedOwner.id).1 = .ok (some printedOwner) := by
  intro db settings token outcome afterEmail
  have haccepts : db.Accepts := Database.accepts_of_no_refusals rfl
  obtain ⟨hlookups, hservice, -⟩ :=
    lookups_agree_on_printed_ids haccepts rfl userTable_capitalsFirst
  have halice : ((sql db).identityByEmail capitalsOwner.email).1 = .ok (some capitalsOwner) := by
    decide +kernel
  have hbob : ((sql db).identityByEmail printedOwner.email).1 = .ok (some printedOwner) := by
    decide +kernel
  have hverify : Token.verify "secret" 0 token =
      .ok ⟨capitalsOwner.email, UInt64.ofNat (min (0 + 3600) (Nat.pow 2 64 - 1))⟩ := by
    refine (Token.verify_ofClaims "secret" _ 0).trans ?_
    exact Token.check_eq_ok.mpr ⟨rfl, by decide +kernel, 'a', by decide +kernel, by decide⟩
  have hlogin : outcome token = .ok (some ⟨capitalsOwner, .login⟩) := by
    have hnames : NamesAccount settings (.atMs 0) (sql db) token capitalsOwner :=
      ⟨⟨⟨"secret"⟩, _, rfl, hverify, rfl⟩, halice⟩
    exact (resolve_login_of_store settings (.atMs 0) (sql db) "").mpr
      ⟨token, rfl, unmarked_ofClaims "secret" _, hnames⟩
  refine ⟨haccepts, rfl, userTable_capitalsFirst, halice, ?_, hlogin, ?_, hbob, ?_⟩
  · obtain ⟨row, hrow, hwho, -, hid⟩ := hlookups _ _ halice
    rwa [if_neg ((row_of_capitalsFirst hrow).1 hwho)] at hid
  · obtain ⟨row, hrow, hwho, hid⟩ := hservice settings (.atMs 0) "" token "rig"
      capitalsOwner.id.text capitalsOwner hlogin (by decide) (by decide +kernel)
      (UserId.parse_text _)
    rwa [if_neg ((row_of_capitalsFirst hrow).1 hwho)] at hid
  · obtain ⟨row, hrow, hwho, -, hid⟩ := hlookups _ _ hbob
    rwa [if_pos ((row_of_capitalsFirst hrow).2 hwho)] at hid

/-- The account of the email "alice@example.com" is found by that email and not by its own id, if
its id was stored in capitals. -/
theorem capitals_hide_account :
    let row : UserRow :=
      ⟨"6F2A7C1E-4B8D-4A53-9F0E-2D7B1C3A5E90", "alice@example.com", true, true, "REQUESTER"⟩
    let s := sql (({} : Database).insertUser row)
    UserTable [row] ∧ (s.identityByEmail "alice@example.com").1 = .ok (some capitalsOwner) ∧
    (s.identityById capitalsOwner.id).1 = .ok none := by
  intro row s
  refine ⟨⟨?_, List.nodup_singleton _⟩, by decide +kernel, by decide +kernel⟩
  intro row' hrow'
  rw [List.mem_singleton.mp hrow']
  exact ⟨capitalsOwner, by decide +kernel⟩

end Store

end Foreman
