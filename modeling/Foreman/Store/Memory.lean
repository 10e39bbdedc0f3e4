/-
Stores that live in memory.

Accounts are kept under their ids, reset tokens under their normalized emails
with the instant at which they expire, service tokens under their full text, and
results as counts per provider and per requester.
-/
import Foreman.Clock
import Foreman.Event
import Foreman.Store.Error

namespace Foreman

/-- A reset token of an email, and the instant of the monotonic clock at which it expires. -/
structure ResetEntry where
  email : String
  token : String
  expiresAtNanos : Nat
deriving DecidableEq

/-- How often a key was counted. -/
abbrev Counts (α : Type) := List (α × Nat)

namespace Counts

variable {α : Type} [DecidableEq α]

/-- The count of a key; a key never counted has none. -/
def get (counts : Counts α) (a : α) : Nat :=
  ((counts.find? (·.1 == a)).map (·.2)).getD 0

/-- Counts a key once more. -/
def bump (counts : Counts α) (a : α) : Counts α :=
  match counts with
  | [] => [(a, 1)]
  | p :: r => if p.1 = a then (a, p.2 + 1) :: r else p :: bump r a

@[simp] theorem get_nil (a : α) : get ([] : Counts α) a = 0 := rfl

/-- Counting a key changes its own count only. -/
theorem get_bump (counts : Counts α) (a b : α) :
    (counts.bump a).get b = counts.get b + if a = b then 1 else 0 := by
  induction counts with
  | nil => by_cases h : a = b <;> simp [bump, get, h]
  | cons p r ih =>
    by_cases hp : p.1 = a
    · by_cases hb : a = b <;> simp [bump, get, hp, hb]
    · by_cases hb : p.1 = b
      · have hab : ¬ a = b := fun e => hp (hb.trans e.symm)
        subst hb
        simp [bump, get, hp, hab]
      · simpa [bump, get, hp, hb] using ih

end Counts

/-- The stores of a server that keeps everything in memory. -/
structure MemoryStore where
  identities : List Identity := []
  resets : List ResetEntry := []
  resetLifetimeMs : Nat := 1000 * resetLifetimeSeconds
  bindings : List (String × String) := []
  byProvider : Counts UserId := []
  byRequester : Counts UserId := []

namespace MemoryStore

/-! ### Accounts -/

/-- Inserts an account, or replaces the one with the same id. -/
def upsert (who : Identity) (m : MemoryStore) : MemoryStore :=
  { m with identities :=
      if m.identities.any (·.id == who.id) then
        m.identities.map fun i => if i.id = who.id then who else i
      else m.identities ++ [who] }

/-- The account with this id. -/
def identityById (id : UserId) (m : MemoryStore) : Option Identity :=
  m.identities.find? (·.id == id)

/-- The account whose email is the same once both are normalized. -/
def identityByEmail (email : String) (m : MemoryStore) : Option Identity :=
  m.identities.find? fun i => normalizeEmail i.email == normalizeEmail email

/-! ### Reset tokens -/

/-- The entry of an email, expired or not. -/
def resetEntry (email : String) (m : MemoryStore) : Option ResetEntry :=
  m.resets.find? (·.email == normalizeEmail email)

/-- The store without the entry of an email. -/
def dropReset (email : String) (m : MemoryStore) : MemoryStore :=
  { m with resets := m.resets.filter (·.email != normalizeEmail email) }

/-- Sets the token of an email, in place of any other. -/
def setReset (clock : Clock) (email token : String) (m : MemoryStore) : MemoryStore :=
  let entry := ⟨normalizeEmail email, token, clock.monoNanos + m.resetLifetimeMs * 1000000⟩
  { m with resets := entry :: (m.dropReset email).resets }

/-- The token of an email until it expires. -/
def liveReset (clock : Clock) (email : String) (m : MemoryStore) : Option String :=
  ((m.resetEntry email).filter fun e => clock.monoNanos < e.expiresAtNanos).map (·.token)

/-- Asks for the token of an email; an entry found expired is dropped. -/
def getReset (clock : Clock) (email : String) (m : MemoryStore) : Option String × MemoryStore :=
  match m.liveReset clock email with
  | some token => (some token, m)
  | none => (none, m.dropReset email)

/-- Whoever asks is answered with the token that is live. -/
theorem getReset_fst (clock : Clock) (email : String) (m : MemoryStore) :
    (m.getReset clock email).1 = m.liveReset clock email := by
  unfold getReset
  split <;> rename_i h <;> rw [h]

/-- Drops the entry of an email; says whether there was one. -/
def deleteReset (email : String) (m : MemoryStore) : Bool × MemoryStore :=
  ((m.resetEntry email).isSome, m.dropReset email)

/-! ### Service tokens -/

/-- Binds a token to the text of an account id, in place of any other. -/
def bind (token user : String) (m : MemoryStore) : MemoryStore :=
  { m with bindings := (token, user) :: m.bindings.filter (·.1 != token) }

/-- The text to which a token is bound. -/
def serviceTokenUser (token : String) (m : MemoryStore) : Option String :=
  (m.bindings.find? (·.1 == token)).map (·.2)

/-! ### Results -/

/-- Results credited to a provider. -/
def providerResults (provider : UserId) (m : MemoryStore) : Nat :=
  m.byProvider.get provider

/-- Credits a result to the owner of the worker's key and to the requester. -/
def recordWork (event : WorkEvent) (m : MemoryStore) :
    Except StoreError WorkTally × MemoryStore :=
  match event.workerKey.owner? with
  | none => (.error (.noOwner event.workerKey), m)
  | some provider =>
    let m := { m with
      byProvider := m.byProvider.bump provider
      byRequester := m.byRequester.bump event.requesterId }
    (.ok ⟨m.byProvider.get provider, m.byRequester.get event.requesterId⟩, m)

end MemoryStore

end Foreman
