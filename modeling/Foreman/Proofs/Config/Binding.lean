/-
What the accounts and the bindings of a configuration come to in memory.

Without a database the accounts and the bindings of the configuration are put into a store in
memory one after the other.  The last one counts, both times: of several accounts with one
id the last is kept, and of several bindings whose tokens have one normal form the last
is in force.  `identityById_load` and `serviceTokenUser_bindAll` say so of the store, and
`boundText` says it of the raw bindings of a file.
-/
import Foreman.Config.Load
import Foreman.Proofs.Config.ServiceToken
import Foreman.Proofs.Store.Accounts

namespace Foreman

open Text

namespace MemoryStore

/-! ### Accounts -/

/-- An account takes the place of the one with its id, so nobody's place moves. -/
theorem find?_replace (who : Identity) (id : UserId) (accounts : List Identity) :
    (accounts.map fun i => if i.id = who.id then who else i).find? (·.id == id) =
      (accounts.find? (·.id == id)).map fun i => if i.id = who.id then who else i := by
  have hid : ((·.id == id) ∘ fun i => if i.id = who.id then who else i) = (·.id == id) := by
    funext i
    by_cases h : i.id = who.id <;> simp [h]
  rw [List.find?_map, hid]

/-- An account is found by its id once it was inserted, and every other as before. -/
theorem identityById_upsert (who : Identity) (m : MemoryStore) (id : UserId) :
    (m.upsert who).identityById id = if who.id = id then some who else m.identityById id := by
  unfold upsert identityById
  by_cases hany : m.identities.any (·.id == who.id) = true
  · rw [if_pos hany]
    dsimp only
    rw [find?_replace]
    by_cases hid : who.id = id
    · obtain ⟨i, hi, hsame⟩ := List.any_eq_true.mp hany
      have hsome : (m.identities.find? (·.id == id)).isSome = true := by
        rw [List.find?_isSome]
        exact ⟨i, hi, hid ▸ hsame⟩
      obtain ⟨found, hfound⟩ := Option.isSome_iff_exists.mp hsome
      have hfoundId : found.id = id := by simpa using List.find?_some hfound
      rw [if_pos hid, hfound, Option.map_some, if_pos (hfoundId.trans hid.symm)]
    · rw [if_neg hid]
      cases hfind : m.identities.find? (·.id == id) with
      | none => rfl
      | some found =>
        have hfoundId : found.id = id := by simpa using List.find?_some hfind
        rw [Option.map_some, if_neg (fun h => hid (h.symm.trans hfoundId))]
  · rw [if_neg hany]
    dsimp only
    rw [List.find?_append]
    by_cases hid : who.id = id
    · have hnone : m.identities.find? (·.id == id) = none := by
        rw [List.find?_eq_none]
        intro i hi hsame
        exact hany (List.any_eq_true.mpr ⟨i, hi, hid ▸ hsame⟩)
      simp [hnone, hid]
    · simp [hid]

/-- The last of the accounts with an id is the one that is found. -/
theorem identityById_load (accounts : List Identity) (id : UserId) :
    (({} : MemoryStore).load accounts).identityById id =
      (accounts.filter (·.id == id)).getLast? := by
  induction accounts using List.reverseRecOn with
  | nil => rfl
  | append_singleton accounts who ih =>
    rw [load, List.foldl_append, List.filter_append]
    show ((({} : MemoryStore).load accounts).upsert who).identityById id = _
    rw [identityById_upsert, ih]
    by_cases hid : who.id = id <;> simp [hid]

/-! ### Bindings -/

/-- The store with tokens bound, one after the other. -/
def bindAll (bindings : List (String × String)) (m : MemoryStore) : MemoryStore :=
  bindings.foldl (fun m b => m.bind b.1 b.2) m

theorem serviceTokenUser_bind (token user : String) (m : MemoryStore) (t : String) :
    (m.bind token user).serviceTokenUser t = if token = t then some user
      else m.serviceTokenUser t := by
  unfold bind serviceTokenUser
  by_cases ht : token = t
  · simp [ht]
  · have hother : (m.bindings.filter (·.1 != token)).find? (·.1 == t) =
        m.bindings.find? (·.1 == t) := by
      rw [List.find?_filter]
      congr 1
      funext b
      by_cases hb : b.1 = t <;> simp [hb, Ne.symm ht]
    simp [ht, hother]

/-- The last of the bindings of a token is the one in force. -/
theorem serviceTokenUser_bindAll (bindings : List (String × String)) {m : MemoryStore}
    (hm : m.bindings = []) (token : String) :
    (m.bindAll bindings).serviceTokenUser token =
      ((bindings.filter (·.1 == token)).getLast?).map (·.2) := by
  induction bindings using List.reverseRecOn with
  | nil =>
    show m.serviceTokenUser token = none
    rw [serviceTokenUser, hm]
    rfl
  | append_singleton bindings b ih =>
    rw [bindAll, List.foldl_append, List.filter_append]
    show ((m.bindAll bindings).bind b.1 b.2).serviceTokenUser token = _
    rw [serviceTokenUser_bind, ih]
    by_cases hb : b.1 = token <;> simp [hb]

/-- Binding tokens leaves the accounts alone. -/
theorem identities_bindAll (bindings : List (String × String)) (m : MemoryStore) :
    (m.bindAll bindings).identities = m.identities := by
  induction bindings generalizing m with
  | nil => rfl
  | cons b rest ih => exact ih (m.bind b.1 b.2)

/-- Inserting accounts leaves the bindings alone. -/
theorem bindings_load (accounts : List Identity) (m : MemoryStore) :
    (m.load accounts).bindings = m.bindings := by
  induction accounts generalizing m with
  | nil => rfl
  | cons who rest ih => exact ih (m.upsert who)

end MemoryStore

namespace Config

/-! ### Bindings of a file -/

/-- The text to which the last binding of a token binds it. -/
def boundText (bindings : List (String × String)) (token : String) : Option String :=
  ((bindings.filter fun b => normalizeServiceToken b.1 = some token).getLast?).map (·.2)

theorem boundText_concat (bindings : List (String × String)) (b : String × String) (token : String) :
    boundText (bindings ++ [b]) token =
      if normalizeServiceToken b.1 = some token then some b.2 else boundText bindings token := by
  rw [boundText, List.filter_append]
  by_cases h : normalizeServiceToken b.1 = some token
  · simp [h]
  · simp [h, boundText]

theorem normalBindings_concat (bindings : List (String × String)) (b : String × String) :
    normalBindings (bindings ++ [b]) =
      match normalizeServiceToken b.1 with
      | none => normalBindings bindings
      | some token => (normalBindings bindings).filter (·.1 != token) ++ [(token, b.2)] := by
  rw [normalBindings, List.foldl_append]
  rfl

/-- Bindings under normal tokens say of a token what the raw ones say. -/
theorem getLast?_normalBindings (bindings : List (String × String)) (token : String) :
    ((normalBindings bindings).filter (·.1 == token)).getLast?.map (·.2) =
      boundText bindings token := by
  induction bindings using List.reverseRecOn with
  | nil => rfl
  | append_singleton bindings b ih =>
    rw [normalBindings_concat, boundText_concat]
    cases hnormal : normalizeServiceToken b.1 with
    | none => simpa using ih
    | some t =>
      dsimp only
      rw [List.filter_append, List.filter_filter]
      by_cases ht : t = token
      · simp [ht]
      · have hkept : (normalBindings bindings).filter (fun p => (p.1 == token) && (p.1 != t)) =
            (normalBindings bindings).filter (·.1 == token) := by
          refine List.filter_congr fun p _ => ?_
          by_cases hp : p.1 = token <;> simp [hp, Ne.symm ht]
        rw [hkept, List.filter_cons_of_neg (by simpa using ht), List.filter_nil, List.append_nil, ih,
          if_neg (fun h => ht (Option.some.inj h))]

/-- A binding under a normal token comes from a raw one. -/
theorem exists_of_mem_normalBindings {bindings : List (String × String)} {p : String × String}
    (h : p ∈ normalBindings bindings) :
    ∃ b ∈ bindings, normalizeServiceToken b.1 = some p.1 := by
  induction bindings using List.reverseRecOn with
  | nil => cases h
  | append_singleton bindings b ih =>
    rw [normalBindings_concat] at h
    cases hnormal : normalizeServiceToken b.1 with
    | none =>
      rw [hnormal] at h
      obtain ⟨b', hb', htoken⟩ := ih h
      exact ⟨b', List.mem_append_left _ hb', htoken⟩
    | some t =>
      rw [hnormal] at h
      rcases List.mem_append.mp h with hold | hnew
      · obtain ⟨b', hb', htoken⟩ := ih (List.mem_filter.mp hold).1
        exact ⟨b', List.mem_append_left _ hb', htoken⟩
      · rw [List.mem_singleton.mp hnew]
        exact ⟨b, List.mem_append_right _ List.mem_cons_self, hnormal⟩

end Config

end Foreman
