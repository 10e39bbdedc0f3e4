/-
Hexadecimal numbers without leading zeros, read back.

`Nat.toDigits 16` writes a number with as many digits as it needs.  What is written reads back to
the number, since reading a text and then another is reading the two together, and it is as short
as the number is small.
-/
import Mathlib.Data.Nat.Digits.Defs
import Foreman.Text.Hex

namespace Foreman.Text.Hex

/-- The digits behind others are read after them. -/
theorem readFrom_append (n : Nat) (s t : List Char) :
    readFrom n (s ++ t) = (readFrom n s).bind fun m => readFrom m t := by
  induction s generalizing n with
  | nil => rfl
  | cons c s ih =>
    rw [List.cons_append, readFrom, readFrom]
    cases digit? c with
    | none => rfl
    | some d => exact ih (16 * n + d)

theorem digit?_digitChar {n : Nat} (h : n < 16) : digit? n.digitChar = some n := by
  revert h
  revert n
  decide

theorem read_eq_readFrom {s : List Char} (h : s ≠ []) : read s = readFrom 0 s := by
  cases s with
  | nil => exact absurd rfl h
  | cons c r => rfl

/-- **A number reads back.** -/
theorem read_toDigits (n : Nat) : read (Nat.toDigits 16 n) = some n := by
  rw [read_eq_readFrom Nat.toDigits_ne_nil]
  induction n using Nat.strong_induction_on with
  | _ n ih =>
    by_cases hlt : n < 16
    · rw [Nat.toDigits_of_lt_base hlt, readFrom, digit?_digitChar hlt, Option.bind_some]
      rw [Nat.mul_zero, Nat.zero_add]
      rfl
    · have hsmaller : n / 16 < n := by omega
      have hdigit : n % 16 < 16 := by omega
      rw [Nat.toDigits_of_base_le (by decide) (Nat.le_of_not_lt hlt), readFrom_append,
        ih (n / 16) hsmaller, Option.bind_some, readFrom, digit?_digitChar hdigit,
        Option.bind_some, Nat.div_add_mod]
      rfl

theorem digit?_lt {c : Char} {d : Nat} (h : digit? c = some d) : d < 16 := by
  have hnine : '9'.toNat = 57 := rfl
  have hf : 'f'.toNat = 102 := rfl
  have hF : 'F'.toNat = 70 := rfl
  have hzero : '0'.toNat = 48 := rfl
  have ha : 'a'.toNat = 97 := rfl
  have hA : 'A'.toNat = 65 := rfl
  have hle {x y : Char} (hxy : x ≤ y) : x.toNat ≤ y.toNat := hxy
  unfold digit? at h
  split at h
  · rename_i hrange
    have hhigh := hle hrange.2
    cases h
    omega
  · split at h
    · rename_i hrange
      have hhigh := hle hrange.2
      cases h
      omega
    · split at h
      · rename_i hrange
        have hhigh := hle hrange.2
        cases h
        omega
      · cases h

/-- Only digits are read, and as many make no greater number. -/
theorem of_readFrom {s : List Char} {n m : Nat} (h : readFrom n s = some m) :
    (∀ c ∈ s, (digit? c).isSome = true) ∧ m < (n + 1) * 16 ^ s.length := by
  induction s generalizing n with
  | nil =>
    obtain rfl := Option.some.inj h
    refine ⟨by simp, ?_⟩
    rw [List.length_nil, Nat.pow_zero, Nat.mul_one]
    exact Nat.lt_succ_self _
  | cons c r ih =>
    obtain ⟨d, hd, hr⟩ := Option.bind_eq_some_iff.mp h
    obtain ⟨hdigits, hlt⟩ := ih hr
    refine ⟨List.forall_mem_cons.mpr ⟨by rw [hd]; rfl, hdigits⟩, ?_⟩
    have hd16 := digit?_lt hd
    calc m < (16 * n + d + 1) * 16 ^ r.length := hlt
      _ ≤ ((n + 1) * 16) * 16 ^ r.length := Nat.mul_le_mul_right _ (by omega)
      _ = (n + 1) * 16 ^ (c :: r).length := by rw [List.length_cons, Nat.pow_succ']; ring

theorem ne_nil_of_read {s : List Char} {n : Nat} (h : read s = some n) : s ≠ [] := by
  rintro rfl
  cases h

theorem of_read {s : List Char} {n : Nat} (h : read s = some n) :
    (∀ c ∈ s, (digit? c).isSome = true) ∧ n < 16 ^ s.length := by
  rw [read_eq_readFrom (ne_nil_of_read h)] at h
  simpa using of_readFrom h

end Foreman.Text.Hex
