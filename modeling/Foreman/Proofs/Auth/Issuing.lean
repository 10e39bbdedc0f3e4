/-
Issued tokens say what they were issued for.

Claims are printed, their text is written in bytes and the bytes in letters.  Each step
is undone when the token is read, so the claims of an issued token are the ones that
were put in, and only the clock can refuse them later.
-/
import Foreman.Proofs.Auth.Signature
import Foreman.Proofs.Message
import Foreman.Proofs.Text.Utf8

namespace Foreman.Auth

open Text

namespace Claims

variable (c : Claims)

theorem plain : Plain [("sub", .ofText c.subject), ("exp", .ofNat c.expiresAt.toNat)] :=
  (Plain.nil.nat c.expiresAt.toNat_lt).text _

/-- Claims are read back from their record. -/
theorem ofJson?_toJson : ofJson? c.toJson = some c := by
  have hvalues : Json.values? names c.toJson =
      some [.ofText c.subject, .ofNat c.expiresAt.toNat] :=
    Json.values?_record rfl (by decide)
  have hexpiry : (Json.ofNat c.expiresAt.toNat).nat? (Nat.pow 2 64) = some c.expiresAt.toNat :=
    Json.nat?_ofNat c.expiresAt.toNat_lt
  rw [ofJson?, hvalues]
  simp [hexpiry]

end Claims

namespace Token

/-- **A token says the claims that it was made of.** -/
theorem says_ofClaims (secret : String) (c : Claims) :
    Says secret (ofClaims secret c) c (utf8 c.toJson.print) := by
  have hread : Json.ofUnits? (unitsOfBytes (utf8 c.toJson.print)) = some c.toJson := by
    rw [unitsOfBytes_utf8]
    exact Json.ofString?_print c.plain.printable
  refine ⟨String.toList_ofList, ?_⟩
  rw [hread, Option.bind_some, c.ofJson?_toJson]

theorem verify_ofClaims (secret : String) (c : Claims) (now : Nat) :
    verify secret now (ofClaims secret c) = check now c :=
  (says_ofClaims secret c).verify_eq now

end Token

end Foreman.Auth
