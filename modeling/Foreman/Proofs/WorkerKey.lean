/-
What the key of a connection says.

The number behind the account has no colon in it, so the last colon of a key is the one
that was put there, and both the account and the number can be read back.  Two connections
have one key only if they are one connection of one account.
-/
import Foreman.Proofs.Account
import Foreman.Proofs.Text.Decimal
import Foreman.WorkerKey

namespace Foreman

open Text

/-! ### Cutting -/

theorem cutFirst_append {sep : Char} {s : List Char} (h : sep ∉ s) (rest : List Char) :
    cutFirst sep (s ++ sep :: rest) = some (s, rest) := by
  induction s with
  | nil => exact if_pos rfl
  | cons c r ih =>
    obtain ⟨hc, hr⟩ : sep ≠ c ∧ sep ∉ r := by simpa using h
    rw [List.cons_append, cutFirst, if_neg hc.symm, ih hr]
    rfl

theorem cutLast_append {sep : Char} {t : List Char} (h : sep ∉ t) (s : List Char) :
    cutLast sep (s ++ sep :: t) = some (s, t) := by
  have hreverse : (s ++ sep :: t).reverse = t.reverse ++ sep :: s.reverse := by simp
  have ht : sep ∉ t.reverse := by simpa using h
  rw [cutLast, hreverse, cutFirst_append ht]
  simp

namespace WorkerKey

variable (owner : UserId) (seq : Nat)

/-- No colon stands behind the one that was put there. -/
theorem cutLast_forConnection :
    cutLast ':' (forConnection owner seq).text.toList = some (owner.print, Decimal.print seq) := by
  have hcolon : ':' ∉ Decimal.print seq := fun h =>
    absurd (Decimal.isDigit_of_mem_print h) (by decide)
  rw [forConnection, String.toList_ofList, cutLast_append hcolon]

/-- **The owner of a connection is the account that it was made for.** -/
theorem owner?_forConnection : (forConnection owner seq).owner? = some owner := by
  have hparse : UserId.parse (String.ofList owner.print) = .ok owner := owner.parse_text
  rw [owner?, cutLast_forConnection, Option.bind_some, hparse]
  rfl

variable {owner seq}

/-- **A key belongs to one connection of one account.** -/
theorem eq_of_forConnection {owner' : UserId} {seq' : Nat}
    (h : forConnection owner seq = forConnection owner' seq') : owner = owner' ∧ seq = seq' := by
  have howner := owner?_forConnection owner seq
  have hcut := cutLast_forConnection owner seq
  rw [h, owner?_forConnection] at howner
  rw [h, cutLast_forConnection] at hcut
  have hdigits : Decimal.print seq' = Decimal.print seq := congrArg Prod.snd (Option.some.inj hcut)
  have hread := Decimal.read_print seq
  rw [← hdigits, Decimal.read_print] at hread
  exact ⟨(Option.some.inj howner).symm, (Option.some.inj hread).symm⟩

/--
**The keys of connections tell them apart.**  For all accounts and all numbers

  * the account that a key was made for can be read back off it;
  * two keys are the same exactly if they were made for one account with one number.
-/
theorem connection_keys_told_apart :
    (∀ owner seq, (forConnection owner seq).owner? = some owner) ∧
      ∀ owner owner' seq seq', forConnection owner seq = forConnection owner' seq' ↔
        owner = owner' ∧ seq = seq' := by
  refine ⟨owner?_forConnection, fun owner owner' seq seq' => ⟨eq_of_forConnection, ?_⟩⟩
  rintro ⟨rfl, rfl⟩
  rfl

end WorkerKey

end Foreman
