/-
Values and records read back from their trees.

A number that is written for a word of the machine is a number of the grammar, is
read as the number it was, and fits a double: that needs no more than that sixty-four
bits hold it, because then no digit is dropped and no power of ten is left over.  A
record is read by the names of its members, which only have to differ.
-/
import Mathlib.Data.List.Nodup
import Mathlib.Data.List.TakeWhile
import Mathlib.Tactic.Linarith
import Foreman.Json.Record
import Foreman.Proofs.Json.Printed
import Foreman.Proofs.Text.Decimal

namespace Foreman.Json

open Text

/-! ### Numbers of the grammar -/

theorem isMagnitude_print (n : Nat) : isMagnitude (Decimal.print n) = true := by
  have hdigits : ∀ c ∈ Decimal.print n, c.isDigit = true :=
    fun c hc => Decimal.isDigit_of_mem_print hc
  rcases Decimal.head_print n with hzero | ⟨d, r, hprint, hd, hne⟩
  · rw [hzero]
    rfl
  · rw [hprint, List.forall_mem_cons] at hdigits
    rw [hprint, isMagnitude]
    · rw [hd, afterDigits_of_digits hdigits.2]
      rfl
    · exact hne

theorem print_ne_minus (n : Nat) : ∀ r, Decimal.print n ≠ '-' :: r := by
  intro r h
  have hdigit : ('-' : Char).isDigit = true :=
    Decimal.isDigit_of_mem_print (n := n) (by rw [h]; exact List.mem_cons_self)
  exact absurd hdigit (by decide)

theorem isNumber_print (n : Nat) : isNumber (Decimal.print n) = true := by
  rw [isNumber]
  · exact isMagnitude_print n
  · exact print_ne_minus n

theorem printable_ofNat (n : Nat) : Printable (.ofNat n) := .number (isNumber_print n)

theorem printable_ofInt (i : Int) : Printable (.ofInt i) := by
  cases i with
  | ofNat n => exact .number (isNumber_print n)
  | negSucc n => exact .number (isMagnitude_print (n + 1))

theorem printable_ofText (s : String) : Printable (.ofText s) :=
  .string (Glyph.printable_ofText s)

/-! ### Numbers that fit a double -/

theorem le_ofDigitChars (s : List Char) (n : Nat) : n ≤ Nat.ofDigitChars 10 s n := by
  have hle : n ≤ 10 ^ s.length * n := Nat.le_mul_of_pos_left n (Nat.pow_pos (by decide))
  rw [Nat.ofDigitChars_eq_ofDigitChars_zero]
  omega

/-- No digit is dropped from a number below `2 ^ 64`. -/
theorem integerPart_of_digits {s : List Char} (h : ∀ c ∈ s, c.isDigit = true) (n : Nat)
    (hlt : Nat.ofDigitChars 10 s n < 2 ^ 64) :
    Scaled.integerPart ⟨n, 0⟩ s = ⟨Nat.ofDigitChars 10 s n, 0⟩ := by
  induction s generalizing n with
  | nil => rfl
  | cons c r ih =>
      rw [List.forall_mem_cons] at h
      have hd : (Decimal.digit? c).getD 0 = c.toNat - '0'.toNat := by
        rw [Decimal.digit?_of_isDigit h.1, Option.getD_some]
      have hmul : n * 10 + (c.toNat - '0'.toNat) = 10 * n + (c.toNat - '0'.toNat) := by omega
      have hroom : (⟨n, 0⟩ : Scaled).hasRoom (c.toNat - '0'.toNat) = true := by
        have hle := le_ofDigitChars r (10 * n + (c.toNat - '0'.toNat))
        rw [Nat.ofDigitChars_cons] at hlt
        rw [Scaled.hasRoom, decide_eq_true_eq]
        show n * 10 + (c.toNat - '0'.toNat) < 2 ^ 64
        omega
      rw [Scaled.integerPart, hd, if_pos ⟨rfl, hroom⟩, hmul, ih h.2 _ hlt,
        Nat.ofDigitChars_cons]

theorem roundToDouble_le (n : Nat) : roundToDouble n ≤ 2 * n + 1 := by
  have hunit : Nat.pow 2 (Nat.log2 n - 52) ≤ n + 1 := by
    by_cases hn : n = 0
    · rw [hn]
      decide
    · have hlog : 2 ^ Nat.log2 n ≤ n := Nat.log2_self_le hn
      have hpow : 2 ^ (Nat.log2 n - 52) ≤ 2 ^ Nat.log2 n :=
        Nat.pow_le_pow_right (by decide) (Nat.sub_le _ _)
      show 2 ^ (Nat.log2 n - 52) ≤ n + 1
      omega
  have hlow : n / Nat.pow 2 (Nat.log2 n - 52) * Nat.pow 2 (Nat.log2 n - 52) ≤ n :=
    Nat.div_mul_le_self n _
  unfold roundToDouble
  dsimp only
  split
  · rw [Nat.add_mul, Nat.one_mul]
    omega
  · omega

theorem fits_of_lt {n : Nat} (h : n < 2 ^ 64) : (⟨n, 0⟩ : Scaled).fits = true := by
  have hround := roundToDouble_le n
  have hone : roundToDouble (Nat.pow 10 (0 : Int).toNat) = 1 := by decide
  have hbound : 2 ^ 66 ≤ doubleBound := by decide +kernel
  have hpow : (2 : Nat) ^ 66 = 4 * 2 ^ 64 := by decide
  unfold Scaled.fits
  split
  · rfl
  · rw [if_neg (show ¬ (0 : Int) > 308 by decide), decide_eq_true_eq]
    show roundToDouble n * roundToDouble (Nat.pow 10 (0 : Int).toNat) < doubleBound
    rw [hone]
    omega

theorem magnitudeFits_of_digits {s : List Char} (hdigits : ∀ c ∈ s, c.isDigit = true)
    (h : Nat.ofDigitChars 10 s 0 < 2 ^ 64) : magnitudeFits s = true := by
  have hlead : leadingDigits s = s := List.takeWhile_eq_self_iff.mpr hdigits
  unfold magnitudeFits
  rw [afterDigits_of_digits hdigits, hlead, integerPart_of_digits hdigits 0 h]
  exact fits_of_lt h

/-- Digits that are read as a number below `2 ^ 64` fit a double. -/
theorem numberFits_of_read {s : List Char} {n : Nat} (hread : Decimal.read s = some n)
    (h : n < 2 ^ 64) : numberFits s = true := by
  obtain ⟨-, hdigits, rfl⟩ := Decimal.value_of_read hread
  rw [numberFits]
  · exact magnitudeFits_of_digits hdigits h
  · rintro r rfl
    exact absurd (hdigits '-' List.mem_cons_self) (by decide)

theorem magnitudeFits_print {n : Nat} (h : n < 2 ^ 64) :
    magnitudeFits (Decimal.print n) = true := by
  obtain ⟨-, hdigits, hvalue⟩ := Decimal.value_of_read (Decimal.read_print n)
  exact magnitudeFits_of_digits hdigits (by rwa [hvalue])

theorem numberFits_print {n : Nat} (h : n < 2 ^ 64) : numberFits (Decimal.print n) = true :=
  numberFits_of_read (Decimal.read_print n) h

theorem numberFits_printInt {i : Int} (h : i.natAbs < 2 ^ 64) :
    numberFits (Decimal.printInt i) = true := by
  cases i with
  | ofNat n => exact numberFits_print h
  | negSucc n => exact magnitudeFits_print h

/-! ### Single values -/

@[simp] theorem text?_ofText (s : String) : (Json.ofText s).text? = some s := Glyph.text?_ofText s

@[simp] theorem bool?_bool (b : Bool) : (Json.bool b).bool? = some b := rfl

@[simp] theorem choice?_ofText (s : String) : (Json.ofText s).choice? = some s :=
  Glyph.text?_ofText s

theorem nat?_ofNat {bound n : Nat} (h : n < bound) : (Json.ofNat n).nat? bound = some n :=
  Decimal.readBelow_print h

theorem int?_ofInt {bound : Nat} {i : Int} (hlow : -(bound : Int) ≤ i) (hhigh : i < bound) :
    (Json.ofInt i).int? bound = some i := by
  cases i with
  | ofNat n =>
      have hn : n < bound := Int.ofNat_lt.mp hhigh
      show int? bound (.number (Decimal.print n)) = _
      rw [int?, Decimal.readBelow_print hn]
      · rfl
      · exact print_ne_minus n
  | negSucc n =>
      have hn : 0 < n + 1 ∧ n + 1 ≤ bound := by omega
      show int? bound (.number ('-' :: Decimal.print (n + 1))) = _
      rw [int?, Decimal.read_print, Option.bind_some, if_pos hn]
      rfl

/-! ### Records -/

section

variable {members : List (String × Json)}

theorem named?_record (members : List (String × Json)) :
    named? (members.map fun m => (Glyph.ofText m.1, m.2)) = some members := by
  rw [named?]
  induction members with
  | nil => rfl
  | cons m ms ih =>
      rw [List.map_cons, List.mapM_cons, Glyph.text?_ofText, ih]
      rfl

theorem only?_of_mem (hn : (members.map (·.1)).Nodup) {m : String × Json} (hm : m ∈ members) :
    only? m.1 members = some m.2 := by
  have hsingle : members.filter (·.1 == m.1) = [m] := by
    induction members with
    | nil => simp at hm
    | cons k ks ih =>
        rw [List.map_cons, List.nodup_cons] at hn
        rcases List.mem_cons.mp hm with rfl | hks
        · have hnone : ks.filter (·.1 == m.1) = [] := by
            rw [List.filter_eq_nil_iff]
            intro k hk heq
            exact hn.1 (List.mem_map.mpr ⟨k, hk, by simpa using heq⟩)
          rw [List.filter_cons, if_pos (beq_self_eq_true m.1), hnone]
        · have hne : ¬ (k.1 == m.1) = true := by
            intro heq
            exact hn.1 (List.mem_map.mpr ⟨m, hks, by simpa using Eq.symm (beq_iff_eq.mp heq)⟩)
          rw [List.filter_cons, if_neg hne, ih hn.2 hks]
  rw [only?, hsingle]

/-- **A record is read by its names**, whatever their order is. -/
theorem values?_record {names : List String} (hnames : members.map (·.1) = names)
    (hn : names.Nodup) : values? names (.record members) = some (members.map (·.2)) := by
  subst hnames
  have hread : ∀ ms ⊆ members, (ms.map (·.1)).mapM (only? · members) = some (ms.map (·.2)) := by
    intro ms
    induction ms with
    | nil => intro _; rfl
    | cons m ms ih =>
        intro hsub
        rw [List.map_cons, List.mapM_cons, only?_of_mem hn (hsub List.mem_cons_self),
          ih (fun k hk => hsub (List.mem_cons_of_mem m hk))]
        rfl
  rw [record, values?, named?_record, Option.bind_some]
  exact hread members (List.Subset.refl _)

/-- A tag in front of a record is taken off. -/
theorem tagged?_record {key tag : String} (names : List String)
    (hnames : members.map (·.1) = names) (hkey : key ∉ names) :
    tagged? key (.record ((key, .ofText tag) :: members)) = some (tag, .record members) := by
  subst hnames
  have honly : only? key ((key, .ofText tag) :: members) = some (.ofText tag) := by
    have hnone : members.filter (·.1 == key) = [] := by
      rw [List.filter_eq_nil_iff]
      intro m hm heq
      exact hkey (List.mem_map.mpr ⟨m, hm, by simpa using heq⟩)
    rw [only?, List.filter_cons, if_pos (beq_self_eq_true key), hnone]
  have hrest : (members.map fun m => (Glyph.ofText m.1, m.2)).filter
      (fun m => Glyph.text? m.1 != some key) = members.map fun m => (Glyph.ofText m.1, m.2) := by
    rw [List.filter_eq_self]
    intro m hm
    obtain ⟨k, hk, rfl⟩ := List.mem_map.mp hm
    have hne : k.1 ≠ key := fun heq => hkey (List.mem_map.mpr ⟨k, hk, heq⟩)
    simp [Glyph.text?_ofText, hne]
  rw [record, tagged?, named?_record]
  simp only [Option.bind_eq_bind, Option.bind_some, honly, text?_ofText]
  rw [List.map_cons, List.filter_cons_of_neg (by simp [Glyph.text?_ofText]), hrest]
  rfl

theorem printable_record (h : ∀ m ∈ members, Printable m.2) : Printable (.record members) := by
  refine .object ?_ ?_ <;> intro m hm <;> obtain ⟨k, hk, rfl⟩ := List.mem_map.mp hm
  · exact Glyph.printable_ofText k.1
  · exact h k hk

theorem wellFormed_record {depth : Nat} (h : ∀ m ∈ members, wellFormed depth m.2 = true) :
    wellFormed (depth + 1) (.record members) = true := by
  rw [record, wellFormed, List.all_eq_true]
  intro m hm
  obtain ⟨k, hk, rfl⟩ := List.mem_map.mp hm
  rw [Glyph.text?_ofText, Option.isSome_some, Bool.true_and]
  exact h k hk

end

theorem wellFormed_ofText (depth : Nat) (s : String) : wellFormed depth (.ofText s) = true := by
  cases depth <;> rw [ofText, wellFormed, Glyph.text?_ofText] <;> rfl

theorem wellFormed_ofNat (depth : Nat) {n : Nat} (h : n < 2 ^ 64) :
    wellFormed depth (.ofNat n) = true := by
  cases depth <;> exact numberFits_print h

theorem wellFormed_ofInt (depth : Nat) {i : Int} (h : i.natAbs < 2 ^ 64) :
    wellFormed depth (.ofInt i) = true := by
  cases depth <;> exact numberFits_printInt h

end Foreman.Json
