/-
What a signed token says, and for how long.

A token that was accepted has one payload, one signature and one set of claims, which
the secret and the text decide; the clock decides only whether the claims have expired.
Nothing can be changed about an accepted token: the comparison of signatures looks at
every byte, bytes have one spelling, and no spelling has a dot in it.
-/
import Mathlib.Data.List.Basic
import Foreman.Auth.Token
import Foreman.Proofs.Account
import Foreman.Proofs.Text.Base64

namespace Foreman.Auth

open Text

/-! ### Comparing signatures -/

theorem foldl_or_eq_zero (bytes : List UInt8) (a : UInt8) :
    bytes.foldl (· ||| ·) a = 0 ↔ a = 0 ∧ ∀ b ∈ bytes, b = 0 := by
  induction bytes generalizing a with
  | nil => simp
  | cons b bytes ih =>
      rw [List.foldl_cons, ih, UInt8.or_eq_zero_iff, List.forall_mem_cons, and_assoc]

theorem zipWith_xor_eq_zero {a b : List UInt8} (h : a.length = b.length) :
    (∀ x ∈ List.zipWith (· ^^^ ·) a b, x = 0) ↔ a = b := by
  induction a generalizing b with
  | nil =>
      rw [List.length_eq_zero_iff.mp h.symm]
      simp
  | cons x a ih =>
      cases b with
      | nil => cases h
      | cons y b =>
          rw [List.zipWith_cons_cons, List.forall_mem_cons, UInt8.xor_eq_zero_iff,
            ih (Nat.succ.inj h), List.cons_eq_cons]

theorem agree_iff {a b : List UInt8} : Token.agree a b = true ↔ a = b := by
  rw [Token.agree, Bool.and_eq_true, beq_iff_eq, beq_iff_eq]
  constructor
  · rintro ⟨hlength, hfold⟩
    exact (zipWith_xor_eq_zero hlength).mp ((foldl_or_eq_zero _ 0).mp hfold).2
  · rintro rfl
    exact ⟨rfl, (foldl_or_eq_zero _ 0).mpr ⟨rfl, (zipWith_xor_eq_zero rfl).mpr rfl⟩⟩

namespace Token

/-! ### Claims -/

theorem check_of_live {now : Nat} {c : Claims} (h : now < c.expiresAt.toNat) :
    check now c = if isBlankText c.subject then .error .emptySubject else .ok c := by
  rw [check, if_neg (Nat.not_le_of_lt h)]

theorem check_of_expired {now : Nat} {c : Claims} (h : c.expiresAt.toNat ≤ now) :
    check now c = .error .expired := by
  rw [check, if_pos h]

theorem isBlankText_eq_false {s : String} :
    isBlankText s = false ↔ ∃ x ∈ s.toList, isBlank x = false := by
  rw [isBlankText, List.all_eq_false]
  simp only [Bool.not_eq_true]

theorem check_eq_ok {now : Nat} {c d : Claims} :
    check now c = .ok d ↔
      c = d ∧ now < d.expiresAt.toNat ∧ ∃ x ∈ d.subject.toList, isBlank x = false := by
  rw [← isBlankText_eq_false]
  by_cases hlive : now < c.expiresAt.toNat
  · rw [check_of_live hlive]
    cases hblank : isBlankText c.subject with
    | true =>
        constructor
        · intro h
          cases h
        · rintro ⟨rfl, -, hfull⟩
          rw [hblank] at hfull
          cases hfull
    | false =>
        constructor
        · intro h
          cases h
          exact ⟨rfl, hlive, hblank⟩
        · rintro ⟨rfl, -, -⟩
          rfl
  · rw [check_of_expired (Nat.le_of_not_lt hlive)]
    constructor
    · intro h
      cases h
    · rintro ⟨rfl, hlive', -⟩
      exact absurd hlive' hlive

/-! ### Tokens -/

/-- The spelling of a payload's signature. -/
def signatureText (secret : String) (payload : List Char) : List Char :=
  Base64.encode Base64.urlSafe (sign secret payload)

theorem dot_not_mem_encode (bytes : List UInt8) : '.' ∉ Base64.encode Base64.urlSafe bytes :=
  Base64.not_mem_encode Base64.dot_ne_letter bytes

theorem splitChars_signed (secret : String) (bytes : List UInt8) :
    splitChars '.' (signed secret (Base64.encode Base64.urlSafe bytes)) =
      [version, Base64.encode Base64.urlSafe bytes,
        signatureText secret (Base64.encode Base64.urlSafe bytes)] := by
  have hparts : ∀ part ∈ [version, Base64.encode Base64.urlSafe bytes,
      signatureText secret (Base64.encode Base64.urlSafe bytes)], '.' ∉ part := by
    simp only [List.forall_mem_cons]
    exact ⟨by decide, dot_not_mem_encode _, dot_not_mem_encode _, List.forall_mem_nil _⟩
  rw [splitChars_eq_splitOn]
  exact List.splitOn_intercalate '.' hparts (by simp)

/-- A token is the text of a payload, its claims are what the payload's bytes hold. -/
structure Says (secret token : String) (c : Claims) (bytes : List UInt8) : Prop where
  text : token.toList = signed secret (Base64.encode Base64.urlSafe bytes)
  holds : (Json.ofUnits? (unitsOfBytes bytes)).bind Claims.ofJson? = some c

/-- What a token says does not depend on the clock. -/
theorem Says.verify_eq {secret token : String} {c : Claims} {bytes : List UInt8}
    (h : Says secret token c bytes) (now : Nat) : verify secret now token = check now c := by
  have hagree (given : List UInt8) : agree given given = true := agree_iff.mpr rfl
  simp [verify, h.text, splitChars_signed, signatureText, Base64.decode_encode, hagree, h.holds]

/-- Nothing but a token that says something is accepted. -/
theorem says_of_verify {secret token : String} {now : Nat} {c : Claims}
    (h : verify secret now token = .ok c) : ∃ bytes, Says secret token c bytes := by
  unfold verify at h
  split at h
  · rename_i v payload signature hsplit
    split at h
    · cases h
    rename_i hversion
    split at h
    · cases h
    · cases h
    · rename_i bytes given hpayload hgiven
      split at h
      · cases h
      rename_i hagree
      split at h
      · cases h
      · rename_i d hholds
        obtain ⟨rfl, -⟩ := check_eq_ok.mp h
        have hsign : sign secret payload = given := by
          simpa [agree_iff] using hagree
        have htext : token.toList = signed secret payload := by
          rw [splitChars_eq_splitOn] at hsplit
          have hjoin : ['.'].intercalate (token.toList.splitOn '.') = token.toList :=
            List.intercalate_splitOn '.'
          rw [← hjoin, hsplit, not_not.mp hversion, Base64.decode_eq_some_iff.mp hgiven, ← hsign]
          rfl
        refine ⟨bytes, ?_, hholds⟩
        rw [htext, Base64.decode_eq_some_iff.mp hpayload]
  · cases h

/-- An accepted token takes no other signature. -/
theorem signature_of_verify {secret : String} {now : Nat} {payload signature : List Char}
    {c : Claims} (h : verify secret now
      (String.ofList (version ++ '.' :: payload ++ '.' :: signature)) = .ok c) :
    signature = signatureText secret payload := by
  obtain ⟨bytes, htext, -⟩ := says_of_verify h
  rw [String.toList_ofList, signed, List.append_assoc, List.append_assoc,
    List.append_cancel_left_eq, List.cons_append, List.cons_append, List.cons_inj_right] at htext
  -- the written payload is what stands before the first dot of both texts
  have hright : '.' ∉ Base64.encode Base64.urlSafe bytes := dot_not_mem_encode bytes
  have hafter : '.' ∉ signatureText secret (Base64.encode Base64.urlSafe bytes) :=
    dot_not_mem_encode _
  obtain ⟨hpayload, -, hsignature⟩ :=
    (List.append_cons_inj_of_notMem hright hafter).mp htext.symm
  rw [← hsignature, ← hpayload]

theorem verify_payload_iff (secret : String) (now : Nat) (payload signature : List Char)
    (c : Claims) :
    verify secret now (String.ofList (version ++ '.' :: payload ++ '.' :: signature)) = .ok c ↔
      signature = signatureText secret payload ∧
        verify secret now (String.ofList (signed secret payload)) = .ok c := by
  constructor
  · intro h
    obtain rfl := signature_of_verify h
    exact ⟨rfl, h⟩
  · rintro ⟨rfl, h⟩
    exact h

/-- The text of a token, as text. -/
theorem ofList_parts (payload signature : String) :
    String.ofList (version ++ '.' :: payload.toList ++ '.' :: signature.toList) =
      "v1." ++ payload ++ "." ++ signature := by
  rw [← String.toList_inj, String.toList_ofList]
  simp [version]

theorem says_iff {secret token : String} {c : Claims} {bytes : List UInt8} :
    Says secret token c bytes ↔
      token = "v1." ++ String.ofList (Base64.encode Base64.urlSafe bytes) ++ "." ++
        String.ofList (signatureText secret (Base64.encode Base64.urlSafe bytes)) ∧
      (Json.ofUnits? (unitsOfBytes bytes)).bind Claims.ofJson? = some c := by
  rw [← ofList_parts, String.toList_ofList, String.toList_ofList, ← String.toList_inj,
    String.toList_ofList]
  constructor
  · rintro ⟨htext, hholds⟩
    exact ⟨htext, hholds⟩
  · rintro ⟨htext, hholds⟩
    exact ⟨htext, hholds⟩

theorem Says.verify_over_time {secret token : String} {c : Claims} {bytes : List UInt8}
    (h : Says secret token c bytes) (hfull : isBlankText c.subject = false) (now : Nat) :
    verify secret now token = if now < c.expiresAt.toNat then .ok c else .error .expired := by
  rw [h.verify_eq now]
  by_cases hlive : now < c.expiresAt.toNat
  · rw [check_of_live hlive, hfull, if_pos hlive]
    rfl
  · rw [check_of_expired (Nat.le_of_not_lt hlive), if_neg hlive]

/-- **What a token says is in its text.**  A token is accepted with the claims that its
payload spells and nothing else, and only under the signature of its payload; and it is
accepted with the same claims until they expire, and from then on refused. -/
theorem tokens_decided (secret : String) :
    (∀ token now c, verify secret now token = .ok c ↔ ∃ bytes,
      let payload := Base64.encode Base64.urlSafe bytes
      token = "v1." ++ String.ofList payload ++ "." ++
        String.ofList (Base64.encode Base64.urlSafe
          (Digest.hmacSha256 (utf8 secret) (utf8 (String.ofList payload)))) ∧
      ('.' ∉ payload ∧ '=' ∉ payload) ∧
      (Json.ofUnits? (unitsOfBytes bytes)).bind Claims.ofJson? = some c ∧
      now < c.expiresAt.toNat ∧ ∃ x ∈ c.subject.toList, isBlank x = false) ∧
    (∀ payload signature : String, ∀ now c,
      let tag := String.ofList (Base64.encode Base64.urlSafe
        (Digest.hmacSha256 (utf8 secret) (utf8 payload)))
      verify secret now ("v1." ++ payload ++ "." ++ signature) = .ok c ↔
        signature = tag ∧ verify secret now ("v1." ++ payload ++ "." ++ tag) = .ok c) ∧
    ∀ token c, (∃ now, verify secret now token = .ok c) ↔
      0 < c.expiresAt.toNat ∧ ∀ now, verify secret now token =
        if now < c.expiresAt.toNat then .ok c else .error .expired := by
  refine ⟨?_, ?_, ?_⟩
  · intro token now c
    constructor
    · intro h
      obtain ⟨bytes, hsaid⟩ := says_of_verify h
      obtain ⟨-, hlive, hfull⟩ := check_eq_ok.mp ((hsaid.verify_eq now).symm.trans h)
      obtain ⟨htext, hholds⟩ := says_iff.mp hsaid
      exact ⟨bytes, htext, ⟨dot_not_mem_encode bytes,
        Base64.not_mem_encode Base64.pad_ne_letter bytes⟩, hholds, hlive, hfull⟩
    · rintro ⟨bytes, htext, -, hholds, hlive, hfull⟩
      have hsaid : Says secret token c bytes := says_iff.mpr ⟨htext, hholds⟩
      rw [hsaid.verify_eq now]
      exact check_eq_ok.mpr ⟨rfl, hlive, hfull⟩
  · intro payload signature now c tag
    have htag : tag.toList = signatureText secret payload.toList := by
      rw [String.toList_ofList, signatureText, sign, String.ofList_toList]
    rw [← ofList_parts, ← ofList_parts, verify_payload_iff, ← htag, String.toList_inj, signed,
      ← signatureText, ← htag]
  · intro token c
    constructor
    · rintro ⟨now, h⟩
      obtain ⟨bytes, hsaid⟩ := says_of_verify h
      obtain ⟨-, hlive, hfull⟩ := check_eq_ok.mp ((hsaid.verify_eq now).symm.trans h)
      exact ⟨Nat.zero_lt_of_lt hlive,
        hsaid.verify_over_time (isBlankText_eq_false.mpr hfull)⟩
    · rintro ⟨hpos, hall⟩
      exact ⟨0, by rw [hall 0, if_pos hpos]⟩

end Token

end Foreman.Auth
