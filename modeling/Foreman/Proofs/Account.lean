/-
An account's id and its text.

Ids are compared as numbers in memory and as texts in a database, and keys of
workers and bindings of service tokens hold them as texts.  All of this agrees
because the text of an id reads back to the id: the digits read back to the number,
and the hyphens stand where the reader looks for them and nowhere else.
-/
import Mathlib.Tactic.Ring
import Foreman.Proofs.Text.Trim
import Foreman.Account

namespace Foreman

open Text

/-! ### Digits -/

theorem printWidth_succ (width n : Nat) :
    Hex.printWidth (width + 1) n = Hex.digit (n / 16 ^ width % 16) :: Hex.printWidth width n := rfl

/-- The digits of a number, read behind others. -/
theorem readFrom_printWidth (width a n : Nat) :
    Hex.readFrom a (Hex.printWidth width n) = some (a * 16 ^ width + n % 16 ^ width) := by
  induction width generalizing a with
  | zero => simp [Hex.printWidth, Hex.readFrom, Nat.mod_one]
  | succ width ih =>
    have hdigit : n / 16 ^ width % 16 < 16 := Nat.mod_lt _ (by decide)
    rw [printWidth_succ, Hex.readFrom, Hex.digit?_digit hdigit, Option.bind_some, ih,
      Nat.mod_pow_succ, Nat.pow_succ]
    congr 1
    ring

theorem read_printWidth {width : Nat} (hw : 0 < width) (n : Nat) :
    Hex.read (Hex.printWidth width n) = some (n % 16 ^ width) := by
  have h := readFrom_printWidth width 0 n
  obtain ⟨width, rfl⟩ := Nat.exists_eq_succ_of_ne_zero hw.ne'
  rw [Nat.zero_mul, Nat.zero_add] at h
  exact h

/-- The digits in which ids are written. -/
def hexDigits : List Char :=
  ['0', '1', '2', '3', '4', '5', '6', '7', '8', '9', 'a', 'b', 'c', 'd', 'e', 'f']

theorem isBlank_of_mem {c : Char} (h : c ∈ hexDigits) : isBlank c = false :=
  isBlank_eq_false_of_all (by decide) c h

theorem digit_mem {n : Nat} (h : n < 16) : Hex.digit n ∈ hexDigits := by
  revert n
  decide

theorem mem_printWidth {width n : Nat} {c : Char} (h : c ∈ Hex.printWidth width n) :
    c ∈ hexDigits := by
  induction width with
  | zero => simp [Hex.printWidth] at h
  | succ width ih =>
    rw [Hex.printWidth, List.mem_cons] at h
    rcases h with rfl | h
    · exact digit_mem (Nat.mod_lt _ (by decide))
    · exact ih h

/-! ### Groups -/

theorem splitChars_eq_splitOn (sep : Char) (s : List Char) : splitChars sep s = s.splitOn sep := by
  induction s with
  | nil => rfl
  | cons c r ih =>
    rw [splitChars, List.splitOn_cons_eq_if_modifyHead, ih]
    by_cases h : c = sep
    · simp [h]
    · have hne := List.splitOn_ne_nil sep r
      cases hr : r.splitOn sep with
      | nil => exact absurd hr hne
      | cons p ps => simp [h]

theorem flatten_groups (ns : List Nat) (s : List Char) :
    (UserId.groups ns s).flatten = s.take ns.sum := by
  induction ns generalizing s with
  | nil => simp [UserId.groups]
  | cons n ns ih =>
    rw [UserId.groups, List.flatten_cons, ih, List.sum_cons, List.take_add]

theorem length_groups {ns : List Nat} {s : List Char} (h : ns.sum ≤ s.length) :
    (UserId.groups ns s).map List.length = ns := by
  induction ns generalizing s with
  | nil => rfl
  | cons n ns ih =>
    rw [List.sum_cons] at h
    have hrest : ns.sum ≤ (s.drop n).length := by
      rw [List.length_drop]
      omega
    rw [UserId.groups, List.map_cons, ih hrest, List.length_take]
    congr 1
    omega

theorem mem_of_mem_groups {ns : List Nat} {s p : List Char} (hp : p ∈ UserId.groups ns s) {c : Char}
    (hc : c ∈ p) : c ∈ s := by
  induction ns generalizing s with
  | nil => simp [UserId.groups] at hp
  | cons n ns ih =>
    rw [UserId.groups, List.mem_cons] at hp
    rcases hp with rfl | hp
    · exact List.mem_of_mem_take hc
    · exact List.mem_of_mem_drop (ih hp)

theorem mem_intercalate {sep c : Char} {parts : List (List Char)}
    (h : c ∈ [sep].intercalate parts) : c = sep ∨ ∃ p ∈ parts, c ∈ p := by
  induction parts with
  | nil => simp at h
  | cons p parts ih =>
    cases parts with
    | nil => exact .inr ⟨p, List.mem_cons_self, by simpa using h⟩
    | cons q rest =>
      rw [List.intercalate_cons_cons, List.mem_append, List.mem_append, List.mem_singleton] at h
      rcases h with (h | h) | h
      · exact .inr ⟨p, List.mem_cons_self, h⟩
      · exact .inl h
      · rcases ih h with h | ⟨l, hl, hc⟩
        · exact .inl h
        · exact .inr ⟨l, List.mem_cons_of_mem p hl, hc⟩

/-! ### The text of an id -/

namespace UserId

variable (id : UserId)

theorem length_digits : id.digits.length = 32 := Hex.length_printWidth 32 _

theorem read_digits : Hex.read id.digits = some id.bits.toNat := by
  have h : Hex.read id.digits = some (id.bits.toNat % 16 ^ 32) := read_printWidth (by decide) _
  have hlt : id.bits.toNat < 16 ^ 32 := Nat.lt_of_lt_of_le id.bits.isLt (by decide)
  rw [h, Nat.mod_eq_of_lt hlt]

/-- The groups of digits between the hyphens. -/
theorem parts_digits {p : List Char} (hp : p ∈ groups groupLengths id.digits) {c : Char}
    (hc : c ∈ p) : c ∈ hexDigits :=
  mem_printWidth (mem_of_mem_groups hp hc)

/-- The reader finds the groups where they were written. -/
theorem splitChars_print : splitChars '-' id.print = groups groupLengths id.digits := by
  rw [print, splitChars_eq_splitOn]
  refine List.splitOn_intercalate '-' ?_ (by simp [groups, groupLengths])
  intro p hp hc
  exact absurd (parts_digits id hp hc) (by decide)

theorem hyphenated?_print : hyphenated? id.print = some id.digits := by
  have hlength : (groups groupLengths id.digits).map List.length = groupLengths :=
    length_groups (by rw [length_digits]; decide)
  have hflatten : (groups groupLengths id.digits).flatten = id.digits := by
    rw [flatten_groups, List.take_of_length_le]
    rw [length_digits]
    decide
  rw [hyphenated?, splitChars_print, if_pos hlength, hflatten]

/-- The first group, and what follows its hyphen. -/
theorem print_eq : ∃ rest, id.print = id.digits.take 8 ++ '-' :: rest ∧ rest.length = 27 := by
  refine ⟨_, rfl, ?_⟩
  simp [groups, length_digits]

theorem length_print : id.print.length = 36 := by
  obtain ⟨rest, hprint, hrest⟩ := id.print_eq
  rw [hprint, List.length_append, List.length_cons, hrest, List.length_take, length_digits]
  rfl

/-- The text begins with a digit. -/
theorem head_print : ∃ c ∈ hexDigits, ∃ rest, id.print = c :: rest := by
  obtain ⟨rest, hprint, -⟩ := id.print_eq
  cases hd : id.digits with
  | nil => simpa [hd] using id.length_digits
  | cons c ds =>
    have hc : c ∈ id.digits := by
      rw [hd]
      exact List.mem_cons_self
    refine ⟨c, mem_printWidth hc, ds.take 7 ++ '-' :: rest, ?_⟩
    rw [hprint, hd]
    rfl

theorem mem_print {c : Char} (hc : c ∈ id.print) : c ∈ hexDigits ∨ c = '-' := by
  rcases mem_intercalate hc with rfl | ⟨p, hp, hcp⟩
  · exact .inr rfl
  · exact .inl (parts_digits id hp hcp)

/-- No reader takes the hyphenated text for one of the other spellings. -/
theorem digits?_print : digits? id.print = some id.digits := by
  obtain ⟨c, hc, rest, hprint⟩ := id.head_print
  have hbrace : id.print.head? ≠ some '{' := by
    rw [hprint]
    intro h
    obtain rfl := Option.some.inj h
    exact absurd hc (by decide)
  have hurn : dropLead? "urn:uuid:".toList ((id.print.take 9).map Char.toLower) = none := by
    have hall : hexDigits.all (fun d => decide ('u' ≠ d.toLower)) = true := by decide
    have hne : 'u' ≠ c.toLower := by simpa using List.all_eq_true.mp hall c hc
    rw [hprint]
    exact if_neg hne
  rw [digits?, if_neg (by rw [length_print]; decide), if_neg (fun h => hbrace h.1), hurn]
  exact id.hyphenated?_print

theorem read?_print : read? id.print = some id := by
  rw [read?, digits?_print, Option.bind_some, read_digits, Option.map_some, BitVec.ofNat_toNat]
  simp

/-- Nothing in the text is blank, so trimming leaves it as it is. -/
theorem trimChars_print : trimChars id.print = id.print := by
  have hblank : ∀ c ∈ id.print, isBlank c = false := by
    intro c hc
    rcases id.mem_print hc with h | rfl
    · exact isBlank_of_mem h
    · decide
  have hdrop {s : List Char} (h : ∀ c ∈ s, isBlank c = false) : s.dropWhile isBlank = s := by
    cases s with
    | nil => rfl
    | cons c r => rw [List.dropWhile_cons, h c List.mem_cons_self]; rfl
  rw [trimChars, hdrop hblank, hdrop, List.reverse_reverse]
  intro c hc
  exact hblank c (List.mem_reverse.mp hc)

/-- **The text of an id reads back to the id.** -/
theorem parse_text : parse id.text = .ok id := by
  have htext : id.text.toList = id.print := String.toList_ofList
  have hblank : isBlankText id.text = false := by
    obtain ⟨c, hc, rest, hprint⟩ := id.head_print
    rw [isBlankText, htext, hprint, List.all_cons, isBlank_of_mem hc, Bool.false_and]
  rw [parse, hblank, htext, trimChars_print, read?_print]
  rfl

/-- Two ids with the same text are the same. -/
theorem text_injective {id id' : UserId} (h : id.text = id'.text) : id = id' := by
  have hparse := id.parse_text
  rw [h, id'.parse_text] at hparse
  exact (Except.ok.inj hparse).symm

end UserId

/-! ### Emails -/

/-- An email that is normalized stays as it is. -/
@[simp] theorem normalizeEmail_idem (email : String) :
    normalizeEmail (normalizeEmail email) = normalizeEmail email := by
  rw [normalizeEmail, normalizeEmail, trim_toLower, trim_trim, toLower_idem]

/-- Lowering the case brings an email into the normalized form only if there are no blanks
around it. -/
theorem toLower_eq_normalizeEmail {stored email : String} :
    stored.toLower = normalizeEmail email ↔
      trim stored = stored ∧ normalizeEmail stored = normalizeEmail email := by
  constructor
  · intro h
    have htrim : trim stored.toLower = stored.toLower := by
      rw [h, normalizeEmail, trim_toLower, trim_trim]
    have hstored : trim stored = stored := trim_toLower_eq_iff.mp htrim
    refine ⟨hstored, ?_⟩
    rw [← h, normalizeEmail, hstored]
  · rintro ⟨hstored, h⟩
    rw [← h, normalizeEmail, hstored]

end Foreman
