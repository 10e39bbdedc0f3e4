/-
Who a service token of the configuration lets in.

A service token is configured twice: in the list of tokens that are accepted, and as a key that
binds it to an account.  Each is brought into its normal form by itself when the file is read,
the accepted ones into a list and the bindings into a store in memory, and a header is
compared with both as it stands.  `resolve_configured_service` puts the three together and
says of a header what it has to be in terms of the file alone.

A file cannot have a key twice, so two bindings of one token are two spellings of it.  Where
there is only one spelling the binding is in force, whatever the order of the bindings.
-/
import Foreman.Proofs.Config.Binding
import Foreman.Proofs.Config.Layers
import Foreman.Proofs.Toml.Keys

namespace Foreman.Config

open Auth

/-! ### Keys of bindings -/

theorem map_fst_of_mapM {entries : Toml.Entries} {pairs : List (String × String)}
    (h : entries.mapM (fun e => e.2.string?.map fun user => (e.1, user)) = some pairs) :
    pairs.map (·.1) = entries.map (·.1) := by
  induction entries generalizing pairs with
  | nil =>
    rw [List.mapM_nil] at h
    rw [← Option.some.inj h]
    rfl
  | cons e entries ih =>
    simp only [List.mapM_cons, Option.bind_eq_bind, Option.bind_eq_some_iff,
      Option.map_eq_some_iff] at h
    obtain ⟨-, ⟨user, -, rfl⟩, rest, hrest, hpairs⟩ := h
    rw [← Option.some.inj hpairs, List.map_cons, List.map_cons, ih hrest]

/-- Bindings under the keys of a table have different keys, in whatever order they are read. -/
theorem nodup_bindings? {v : Toml.Value} (hv : v.Keyed) {bindings : List (String × String)}
    (h : bindings? v = some bindings) : (bindings.map (·.1)).Nodup := by
  obtain ⟨entries, hentries, hmap⟩ := Option.bind_eq_some_iff.mp h
  obtain ⟨pairs, hpairs, rfl⟩ := Option.map_eq_some_iff.mp hmap
  have hkeyed : Toml.Entries.Keyed entries := by
    cases v with
    | table origin t =>
      rw [← Option.some.inj hentries]
      exact Toml.Entries.keyed_of_table hv
    | _ => simp [Toml.Value.entries?] at hentries
  rw [((List.mergeSort_perm pairs _).map _).nodup_iff, map_fst_of_mapM hpairs]
  exact hkeyed.keys

theorem nodup_of_ofEntries? {entries : Toml.Entries} (hkeyed : entries.Keyed) {f : File}
    (h : File.ofEntries? entries = some f) : (f.serviceTokenUsers.map (·.1)).Nodup := by
  unfold File.ofEntries? Toml.Value.record? at h
  dsimp only at h
  split at h
  · rename_i server pipeline persistence users bindings hrecord
    split at hrecord
    · simp only [List.map_cons, List.map_nil, Option.some.injEq, List.cons.injEq] at hrecord
      obtain ⟨-, -, -, -, hbindings, -⟩ := hrecord
      simp only [Option.bind_eq_bind, Option.bind_eq_some_iff] at h
      obtain ⟨_, -, _, -, _, -, _, -, bound, hbound, hf⟩ := h
      rw [← Option.some.inj hf]
      cases bindings with
      | none =>
        rw [← Option.some.inj hbound]
        exact List.nodup_nil
      | some v => exact nodup_bindings? (hkeyed.find hbindings) hbound
    · simp at hrecord
  · simp at h

/-- **No file binds one key twice.** -/
theorem nodup_of_file {path : String} {source : Source} {f : File}
    (h : source.file path = .ok f) : (f.serviceTokenUsers.map (·.1)).Nodup := by
  unfold Source.file at h
  cases source with
  | missing =>
    rw [← Except.ok.inj h]
    exact List.nodup_nil
  | unreadable => simp at h
  | bytes contents =>
    dsimp only at h
    split at h
    · simp at h
    · split at h
      · simp at h
      · rename_i hparse
        obtain ⟨entries, hentries, hfile⟩ := Option.bind_eq_some_iff.mp hparse
        rw [← Except.ok.inj h]
        exact nodup_of_ofEntries? (Toml.keyed_of_parse hentries) hfile

/-! ### The binding in force -/

theorem exists_of_boundText {bindings : List (String × String)} {token user : String}
    (h : boundText bindings token = some user) :
    ∃ b ∈ bindings, normalizeServiceToken b.1 = some token ∧ b.2 = user := by
  obtain ⟨b, hlast, huser⟩ := Option.map_eq_some_iff.mp h
  have hmem := List.mem_filter.mp (List.mem_of_getLast? hlast)
  exact ⟨b, hmem.1, by simpa using hmem.2, huser⟩

/-- A token with one spelling is bound as it is bound under that spelling. -/
theorem boundText_of_only {bindings : List (String × String)} (hkeys : (bindings.map (·.1)).Nodup)
    {b : String × String} (hb : b ∈ bindings) {token : String}
    (htoken : normalizeServiceToken b.1 = some token)
    (honly : ∀ b' ∈ bindings, normalizeServiceToken b'.1 = some token → b'.1 = b.1) :
    boundText bindings token = some b.2 := by
  have hkept : b ∈ bindings.filter fun b => normalizeServiceToken b.1 = some token :=
    List.mem_filter.mpr ⟨hb, by simpa using htoken⟩
  cases hlast : (bindings.filter fun b => normalizeServiceToken b.1 = some token).getLast? with
  | none =>
    rw [List.getLast?_eq_none_iff] at hlast
    rw [hlast] at hkept
    cases hkept
  | some b' =>
    have hmem := List.mem_filter.mp (List.mem_of_getLast? hlast)
    have hkey : b'.1 = b.1 := honly b' hmem.1 (by simpa using hmem.2)
    have hsame : b' = b := List.inj_on_of_nodup_map hkeys hmem.1 hb hkey
    rw [boundText, hlast, hsame]
    rfl

/-! ### Headers -/

/-- The last of some accounts with an id. -/
def lastWith (id : UserId) (accounts : List Identity) : Option Identity :=
  (accounts.filter (·.id == id)).getLast?

theorem exists_lastWith {id : UserId} {accounts : List Identity} {who : Identity}
    (h : who ∈ accounts) (hid : who.id = id) : ∃ last, lastWith id accounts = some last := by
  unfold lastWith
  cases hlast : (accounts.filter (·.id == id)).getLast? with
  | none =>
    rw [List.getLast?_eq_none_iff, List.filter_eq_nil_iff] at hlast
    exact absurd (by simpa using hid) (hlast who h)
  | some last => exact ⟨last, rfl⟩

/-- The store in memory that a configuration sets up. -/
def memoryStore (c : Config) : MemoryStore :=
  (({} : MemoryStore).load c.users).bindAll c.serviceTokenUsers

theorem openStore_memory {c : Config} (h : c.persistence.enabled = false) :
    ∃ notices, c.openStore = .ok (.memory c.memoryStore, notices) := by
  rw [openStore, h, if_neg Bool.false_ne_true]
  exact ⟨_, rfl⟩

theorem identityById_memoryStore (c : Config) (id : UserId) :
    c.memoryStore.identityById id = lastWith id c.users := by
  rw [memoryStore, MemoryStore.identityById, MemoryStore.identities_bindAll]
  exact MemoryStore.identityById_load c.users id

theorem serviceTokenUser_memoryStore {c : Config} {bindings : List (String × String)}
    (h : c.serviceTokenUsers = normalBindings bindings) (token : String) :
    c.memoryStore.serviceTokenUser token = boundText bindings token := by
  have hempty : (({} : MemoryStore).load c.users).bindings = [] :=
    MemoryStore.bindings_load c.users {}
  rw [memoryStore, MemoryStore.serviceTokenUser_bindAll _ hempty, h, getLast?_normalBindings]

/-- **A header gets the trust of service tokens exactly if it is the normal form of an accepted
token, and bound.** -/
theorem resolve_configured_service {c : Config} {tokens : List String}
    {bindings : List (String × String)}
    (htokens : c.server.serviceTokens = tokens.filterMap normalizeServiceToken)
    (hbindings : c.serviceTokenUsers = normalBindings bindings) (clock : Clock) (now : Nat)
    (ip : String) (header : Option String) (who : Identity) :
    (resolve c.authSettings ((Store.memory c.memoryStore).collaborators clock) now ip
        header).outcome = .ok (some ⟨who, .serviceToken⟩) ↔
      ∃ token user id, header = some token ∧
        (∃ raw ∈ tokens, normalizeServiceToken raw = some token) ∧
        boundText bindings token = some user ∧ UserId.parse user = .ok id ∧
        lastWith id c.users = some who := by
  have hlisted (token : String) : token ∈ c.authSettings.serviceTokens ↔
      ∃ raw ∈ tokens, normalizeServiceToken raw = some token := by
    show token ∈ c.server.serviceTokens ↔ _
    rw [htokens, List.mem_filterMap]
  have hbinding (token : String) : (Contents.ofMemory clock c.memoryStore).binding token =
      boundText bindings token := serviceTokenUser_memoryStore hbindings token
  have hbyId (id : UserId) : (Contents.ofMemory clock c.memoryStore).byId id =
      lastWith id c.users := identityById_memoryStore c id
  rw [collaborators_memory, resolve_eq_ok, answer_some_iff]
  constructor
  · rintro (⟨htrust, -⟩ | ⟨htrust, -⟩ | ⟨-, token, id, rfl, ⟨-, hmem, user, hbound, hid⟩, hfound⟩)
    · cases htrust
    · cases htrust
    · rw [hbinding] at hbound
      rw [hbyId] at hfound
      exact ⟨token, user, id, rfl, (hlisted token).mp hmem, hbound, hid, hfound⟩
  · rintro ⟨token, user, id, rfl, ⟨raw, hraw, hnormal⟩, hbound, hid, hfound⟩
    rw [← hbinding] at hbound
    rw [← hbyId] at hfound
    have hmarked := (normal_of_normalizeServiceToken hnormal).2
    have hmem := (hlisted token).mpr ⟨raw, hraw, hnormal⟩
    exact .inr (.inr ⟨rfl, token, id, rfl, ⟨hmarked, hmem, user, hbound, hid⟩, hfound⟩)

/-! ### An environment that sets nothing -/

section

variable {env : Environment} {c : Config}

theorem serviceTokens_of_unset (h : ∀ v, textOf? env v = none) :
    (overridden env c).server.serviceTokens = c.server.serviceTokens := by
  show ((textOf? env .serviceTokens).map tokensOf).getD c.server.serviceTokens = _
  rw [h]
  rfl

theorem enabled_of_unset (h : ∀ v, textOf? env v = none) :
    (overridden env c).persistence.enabled = c.persistence.enabled := by
  show ((textOf? env .persistenceEnabled).bind parseSwitch).getD c.persistence.enabled = _
  rw [h]
  rfl

end

/-! ### Who is let in -/

/--
**A service token lets in the account to which the file binds it.**  Whatever texts a file
lists as service tokens, and whatever keys and texts it binds, if it leaves persistence disabled
and the environment sets nothing, then on the store that the configuration opens

  * a header is resolved to the last account with the id to which a key binds it, with the trust
    of service tokens, if it is the normal form of a listed text and of that key, and of no
    other key;
  * a header gets this trust only if it is the normal form of a listed text and of a key that
    is bound to the id of the account;
  * and a normal form is the normal form of itself, has the mark of service tokens and no blanks
    around it.
-/
theorem service_token_access {newId : Nat → UserId} {path : String} {source : Source} {f : File}
    {env : Environment} {c : Config} {notices : List Notice} (hfile : source.file path = .ok f)
    (hmemory : f.persistence.enabled.getD false = false) (hunset : ∀ v, textOf? env v = none)
    (hload : load newId path source env = .ok (c, notices)) (clock : Clock) (now : Nat)
    (ip : String) :
    ∃ store opened, c.openStore = .ok (store, opened) ∧ identitiesOf newId f.users = .ok c.users ∧
      let outcome header :=
        (resolve c.authSettings (store.collaborators clock) now ip header).outcome
      (∀ raw ∈ f.server.serviceTokens, ∀ b ∈ f.serviceTokenUsers, ∀ token id,
        normalizeServiceToken raw = some token → normalizeServiceToken b.1 = some token →
        (∀ b' ∈ f.serviceTokenUsers, normalizeServiceToken b'.1 = some token → b'.1 = b.1) →
        UserId.parse b.2 = .ok id → (∃ user ∈ c.users, user.id = id) →
        ∃ who, lastWith id c.users = some who ∧
          outcome (some token) = .ok (some ⟨who, .serviceToken⟩)) ∧
      (∀ header who, outcome header = .ok (some ⟨who, .serviceToken⟩) →
        ∃ token, header = some token ∧
          (∃ raw ∈ f.server.serviceTokens, normalizeServiceToken raw = some token) ∧
          ∃ b ∈ f.serviceTokenUsers, normalizeServiceToken b.1 = some token ∧
            ∃ id, UserId.parse b.2 = .ok id ∧ lastWith id c.users = some who) ∧
      ∀ raw token, normalizeServiceToken raw = some token →
        normalizeServiceToken token = some token ∧ Marked token ∧ Text.trim token = token := by
  have hloading := load_loading hfile newId env
  rw [hload] at hloading
  cases hloading with
  | loaded hfits haccounts hpair =>
    rename_i accounts
    have hdisabled : (overridden env (fileConfig f accounts)).persistence.enabled = false :=
      (enabled_of_unset hunset).trans hmemory
    have htokens : (overridden env (fileConfig f accounts)).server.serviceTokens =
        f.server.serviceTokens.filterMap normalizeServiceToken := serviceTokens_of_unset hunset
    obtain ⟨opened, hopen⟩ := openStore_memory hdisabled
    refine ⟨_, opened, hopen, haccounts, ?_⟩
    intro outcome
    have hiff := resolve_configured_service htokens rfl clock now ip
    refine ⟨?_, ?_, ?_⟩
    · intro raw hraw b hb token id hnormal hkey honly hid ⟨user, huser, hsame⟩
      obtain ⟨who, hwho⟩ := exists_lastWith huser hsame
      have hbound := boundText_of_only (nodup_of_file hfile) hb hkey honly
      exact ⟨who, hwho, (hiff _ who).mpr
        ⟨token, b.2, id, rfl, ⟨raw, hraw, hnormal⟩, hbound, hid, hwho⟩⟩
    · intro header who hout
      obtain ⟨token, user, id, rfl, hlisted, hbound, hid, hwho⟩ := (hiff header who).mp hout
      obtain ⟨b, hb, hkey, rfl⟩ := exists_of_boundText hbound
      exact ⟨token, rfl, hlisted, b, hb, hkey, id, hid, hwho⟩
    · intro raw token hnormal
      obtain ⟨htidy, hmarked⟩ := normal_of_normalizeServiceToken hnormal
      exact ⟨normalizeServiceToken_of_normal htidy hmarked, hmarked, htidy.2⟩

/-- A file that lists a token in one spelling and binds it in another. -/
def spelledDocument : String :=
  "server.service_tokens = [\" service:a\"]
service_token_users.a = \"00000000000000000000000000000007\"
users = [[\"00000000000000000000000000000007\", \"\", \"requester\"]]"

/-- Its bytes. -/
def spelledSource : Source :=
  .bytes (spelledDocument.toList.map fun c => UInt8.ofNat c.toNat)

/-- Its tokens. -/
def spelledTokens : List Toml.Token := [
  .bare "server".toList, .dot, .bare "service_tokens".toList, .blank ' ', .equals, .blank ' ',
  .openBracket, .text false " service:a", .closeBracket, .newline,
  .bare "service_token_users".toList, .dot, .bare ['a'], .blank ' ', .equals, .blank ' ',
  .text false "00000000000000000000000000000007", .newline,
  .bare "users".toList, .blank ' ', .equals, .blank ' ', .openBracket, .openBracket,
  .text false "00000000000000000000000000000007", .comma, .blank ' ', .text false "", .comma,
  .blank ' ', .text false "requester", .closeBracket, .closeBracket]

/-- What it sets. -/
def spelledFile : File where
  server := { serviceTokens := [" service:a"] }
  users := [⟨some "00000000000000000000000000000007", "", "requester", false, false⟩]
  serviceTokenUsers := [("a", "00000000000000000000000000000007")]

/-- Its account. -/
def spelledUser : Identity := ⟨⟨7⟩, "", false, false, .requester⟩

set_option maxRecDepth 8000 in
theorem tokens?_spelledDocument : Toml.tokens? spelledDocument = some spelledTokens := by
  cbv

theorem parse?_spelledDocument : File.parse? spelledDocument = some spelledFile := by
  rw [File.parse?, Toml.parse, tokens?_spelledDocument, Option.bind_eq_bind, Option.bind_some]
  decide +kernel

theorem file_spelledSource (path : String) : spelledSource.file path = .ok spelledFile := by
  have htext : Text.textOfUnits? (Text.unitsOfBytes
      (spelledDocument.toList.map fun c => UInt8.ofNat c.toNat)) = some spelledDocument := by
    decide +kernel
  simp only [spelledSource, Source.file, htext, parse?_spelledDocument]

theorem load_spelledSource : ∃ c notices, c.users = [spelledUser] ∧
    load (fun _ => ⟨0⟩) "" spelledSource (fun _ => none) = .ok (c, notices) := by
  have hfits : ¬ TooLong (fileInterval spelledFile) := by
    unfold TooLong
    decide
  have haccounts : identitiesOf (fun _ => ⟨0⟩) spelledFile.users = .ok [spelledUser] := by
    decide +kernel
  have hpair : ¬ Unmendable (overrideServer (fun _ => none)
      (fileConfig spelledFile [spelledUser]).server) := by
    unfold Unmendable TooLong
    decide
  obtain ⟨notices, hload⟩ := ofSettings_of_ok hfits haccounts hpair
  rw [load_of_file (file_spelledSource "")]
  exact ⟨_, notices, rfl, hload⟩

/-- The normal form of both spellings lets its account in. -/
theorem service_token_access_spelled :
    ∃ c notices store opened,
      load (fun _ => ⟨0⟩) "" spelledSource (fun _ => none) = .ok (c, notices) ∧
      c.openStore = .ok (store, opened) ∧
      (resolve c.authSettings (store.collaborators ⟨0, 0⟩) 0 "" (some "service:a")).outcome =
        .ok (some ⟨spelledUser, .serviceToken⟩) := by
  obtain ⟨c, notices, husers, hload⟩ := load_spelledSource
  obtain ⟨store, opened, hopen, -, hadmit, -⟩ := service_token_access (file_spelledSource "") rfl
    (fun _ => rfl) hload ⟨0, 0⟩ 0 ""
  have hid : UserId.parse "00000000000000000000000000000007" = .ok ⟨7⟩ := by decide +kernel
  have hlisted : normalizeServiceToken " service:a" = some "service:a" := by decide +kernel
  have hkey : normalizeServiceToken "a" = some "service:a" := by decide +kernel
  have honly : ∀ b ∈ spelledFile.serviceTokenUsers,
      normalizeServiceToken b.1 = some "service:a" → b.1 = "a" := by
    simp [spelledFile]
  have hexists : ∃ user ∈ c.users, user.id = ⟨7⟩ := by simp [husers, spelledUser]
  obtain ⟨who, hwho, houtcome⟩ := hadmit " service:a" List.mem_cons_self
    ("a", "00000000000000000000000000000007") List.mem_cons_self "service:a" ⟨7⟩ hlisted hkey honly
    hid hexists
  have hsame : who = spelledUser := by
    rw [husers] at hwho
    exact (Option.some.inj hwho).symm
  exact ⟨c, notices, store, opened, hload, hopen, hsame ▸ houtcome⟩

end Foreman.Config
