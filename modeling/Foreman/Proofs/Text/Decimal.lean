/-
Decimal numbers read back.

What `print` writes are digits, so it is enough to know that `read` gives the value
of any digits and that the digits of a number have the number as their value; the
second is known of `Nat.toDigits`.  The first digit matters to grammars that refuse
a leading zero: only the number zero begins with one.
-/
import Mathlib.Data.Nat.Digits.Defs
import Foreman.Text.Decimal

namespace Foreman.Text.Decimal

theorem isDigit_of_mem_print {n : Nat} {c : Char} (h : c ∈ print n) : c.isDigit = true :=
  Nat.isDigit_of_mem_toDigits (by decide) (by decide) h

theorem print_ne_nil (n : Nat) : print n ≠ [] := Nat.toDigits_ne_nil

theorem digit?_of_isDigit {c : Char} (h : c.isDigit = true) :
    digit? c = some (c.toNat - '0'.toNat) := by
  have hrange : '0' ≤ c ∧ c ≤ '9' := by
    simpa [Char.isDigit, Char.le_def] using h
  rw [digit?, if_pos hrange]

/-- The value of digits that stand behind a number. -/
theorem readFrom_of_digits {s : List Char} (h : ∀ c ∈ s, c.isDigit = true) (n : Nat) :
    readFrom n s = some (Nat.ofDigitChars 10 s n) := by
  induction s generalizing n with
  | nil => rfl
  | cons c r ih =>
      have hc : c.isDigit = true := h c List.mem_cons_self
      have hr : ∀ d ∈ r, d.isDigit = true := fun d hd => h d (List.mem_cons_of_mem c hd)
      rw [readFrom, digit?_of_isDigit hc, Option.bind_some, ih hr]
      rfl

theorem isDigit_of_digit? {c : Char} {d : Nat} (h : digit? c = some d) : c.isDigit = true := by
  unfold digit? at h
  split at h
  · rename_i hrange
    simpa [Char.isDigit, Char.le_def] using hrange
  · cases h

/-- Only digits are read. -/
theorem isDigit_of_readFrom {s : List Char} {n m : Nat} (h : readFrom n s = some m) :
    ∀ c ∈ s, c.isDigit = true := by
  induction s generalizing n with
  | nil => simp
  | cons c r ih =>
    obtain ⟨d, hd, hr⟩ := Option.bind_eq_some_iff.mp h
    exact List.forall_mem_cons.mpr ⟨isDigit_of_digit? hd, ih hr⟩

/-- What is read is the value of one digit or more. -/
theorem value_of_read {s : List Char} {n : Nat} (h : read s = some n) :
    s ≠ [] ∧ (∀ c ∈ s, c.isDigit = true) ∧ Nat.ofDigitChars 10 s 0 = n := by
  cases s with
  | nil => cases h
  | cons c r =>
    have hread : readFrom 0 (c :: r) = some n := h
    have hdigits := isDigit_of_readFrom hread
    rw [readFrom_of_digits hdigits] at hread
    exact ⟨List.cons_ne_nil c r, hdigits, Option.some.inj hread⟩

/-- **A number reads back.** -/
theorem read_print (n : Nat) : read (print n) = some n := by
  have hvalue : readFrom 0 (print n) = some n := by
    rw [readFrom_of_digits (fun c hc => isDigit_of_mem_print hc)]
    exact congrArg some (Nat.ofDigitChars_toDigits (by decide) (by decide))
  cases hs : print n with
  | nil => exact absurd hs (print_ne_nil n)
  | cons c r =>
      rw [hs] at hvalue
      exact hvalue

theorem readBelow_print {bound n : Nat} (h : n < bound) : readBelow bound (print n) = some n := by
  rw [readBelow, read_print, Option.filter_some, if_pos (decide_eq_true h)]

theorem digitChar_of_digit? {c : Char} {d : Nat} (h : digit? c = some d) :
    d < 10 ∧ d.digitChar = c := by
  have hdigit := isDigit_of_digit? h
  have hrange : 48 ≤ c.toNat ∧ c.toNat ≤ 57 := by
    simpa [Char.isDigit, UInt32.le_iff_toNat_le] using hdigit
  have hd : c.toNat - 48 = d := by
    rw [digit?_of_isDigit hdigit] at h
    exact Option.some.inj h
  have hall : ∀ d < 10, d.digitChar.toNat = 48 + d := by decide
  refine ⟨by omega, Char.toNat_inj.mp ?_⟩
  rw [hall d (by omega)]
  omega

/-- Digits behind a number that is not zero are the last digits of the number that is read. -/
theorem print_append_of_readFrom {s : List Char} {a n : Nat} (ha : 0 < a)
    (h : readFrom a s = some n) : print a ++ s = print n := by
  induction s generalizing a with
  | nil =>
    obtain rfl := Option.some.inj h
    exact List.append_nil _
  | cons c r ih =>
    obtain ⟨d, hd, hr⟩ := Option.bind_eq_some_iff.mp h
    obtain ⟨hlt, hchar⟩ := digitChar_of_digit? hd
    have hnext : print a ++ [c] = print (10 * a + d) := by
      rw [← hchar, ← Nat.toDigits_of_lt_base hlt]
      exact Nat.toDigits_append_toDigits (by decide) ha hlt
    rw [List.append_cons, hnext]
    exact ih (by omega) hr

/-- **Digits without a leading zero are how their number is printed.** -/
theorem eq_print_of_read {s : List Char} {n : Nat} (h : read s = some n)
    (hlead : 1 < s.length → s.head? ≠ some '0') : s = print n := by
  cases s with
  | nil => cases h
  | cons c r =>
    obtain ⟨d, hd, hr⟩ := Option.bind_eq_some_iff.mp h
    obtain ⟨hlt, rfl⟩ := digitChar_of_digit? hd
    rw [Nat.mul_zero, Nat.zero_add] at hr
    by_cases hzero : d = 0
    · -- a zero in front is all there is
      subst hzero
      cases r with
      | nil =>
        obtain rfl := Option.some.inj hr
        rfl
      | cons e r => exact absurd rfl (hlead (by simp))
    · rw [← print_append_of_readFrom (Nat.pos_of_ne_zero hzero) hr, print,
        Nat.toDigits_of_lt_base hlt]
      rfl

theorem digitChar_ne_zero : ∀ n < 10, n ≠ 0 → n.digitChar.isDigit = true ∧ n.digitChar ≠ '0' := by
  decide

/-- Only zero begins with a zero. -/
theorem head_print (n : Nat) :
    print n = ['0'] ∨ ∃ d r, print n = d :: r ∧ d.isDigit = true ∧ d ≠ '0' := by
  induction n using Nat.strong_induction_on with
  | _ n ih =>
      by_cases hlt : n < 10
      · rw [print, Nat.toDigits_of_lt_base hlt]
        by_cases hzero : n = 0
        · exact Or.inl (by rw [hzero]; rfl)
        · obtain ⟨hdigit, hne⟩ := digitChar_ne_zero n hlt hzero
          exact Or.inr ⟨n.digitChar, [], rfl, hdigit, hne⟩
      · have hge : 10 ≤ n := Nat.le_of_not_lt hlt
        have hsplit : print n = print (n / 10) ++ [(n % 10).digitChar] :=
          Nat.toDigits_of_base_le (by decide) hge
        right
        rcases ih (n / 10) (by omega) with hzero | ⟨d, r, hd, hdigit, hne⟩
        · -- a quotient that is written `0` is zero, and this one is not
          have hread : (some 0 : Option Nat) = some (n / 10) := by
            rw [← read_print (n / 10), hzero]
            rfl
          have hquot : 0 = n / 10 := Option.some.inj hread
          omega
        · exact ⟨d, r ++ [(n % 10).digitChar], by rw [hsplit, hd]; rfl, hdigit, hne⟩

end Foreman.Text.Decimal
