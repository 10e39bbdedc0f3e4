/-
Keys of live worker connections.

A key made for a connection of an account names the account before its last
colon, so the owner of the work that comes in can be read off the key alone.
-/
import Foreman.Account
import Foreman.Text.Decimal

namespace Foreman

open Text

/-- The key of a live worker connection. -/
structure WorkerKey where
  text : String
deriving DecidableEq, Hashable

namespace WorkerKey

/-- A key is any text that is not blank, kept as it is. -/
def parse (s : String) : Except IdError WorkerKey :=
  if isBlankText s then .error .empty else .ok ⟨s⟩

/-- The key of the `seq`-th connection that `owner` opened. -/
def forConnection (owner : UserId) (seq : Nat) : WorkerKey :=
  ⟨String.ofList (owner.print ++ ':' :: Decimal.print seq)⟩

/-- The account before the last colon of a key, if one is written there. -/
def owner? (key : WorkerKey) : Option UserId :=
  (cutLast ':' key.text.toList).bind fun parts =>
    (UserId.parse (String.ofList parts.1)).toOption

instance : ToString WorkerKey := ⟨text⟩

end WorkerKey

/-! ### Secrets -/

/-- A text that is never shown: printing it gives a placeholder. -/
structure Secret where
  /-- Gives the text itself. -/
  expose : String
deriving DecidableEq

namespace Secret

/-- What is shown in place of the secret. -/
def display (_ : Secret) : String := "<redacted>"

/-- What is shown in place of the secret where values are shown with their type. -/
def debug (_ : Secret) : String := "SecretString(<redacted>)"

instance : ToString Secret := ⟨display⟩

end Secret

end Foreman
