/-
A printed tree reads back.

A printed tree is a text of the grammar, in which nothing is padded and every string is
spelled in one way, so it is read as what it says.

Not every tree has a text that reads back: a lexeme has to be a number of the
grammar, and a byte that belongs to no character is printed as one that does.
`Printable` leaves out these and nothing else.
-/
import Foreman.Json.Printer
import Foreman.Proofs.Account
import Foreman.Proofs.Json.Grammar

namespace Foreman

/-- The glyph is written as itself: it is a character, or half of a pair. -/
def Glyph.Printable : Glyph → Prop
  | .char _ => True
  | .surrogate code => Glyph.isHigh code = true ∨ Glyph.isLow code = true
  | .stray => False

theorem Glyph.printable_ofText (s : String) : ∀ g ∈ Glyph.ofText s, g.Printable := by
  intro g hg
  obtain ⟨c, -, rfl⟩ := List.mem_map.mp hg
  trivial

namespace Json

open Text

/-- The tree has a text that reads back. -/
inductive Printable : Json → Prop where
  | null : Printable .null
  | bool (b : Bool) : Printable (.bool b)
  | number {lexeme : List Char} (h : isNumber lexeme = true) : Printable (.number lexeme)
  | string {glyphs : List Glyph} (h : ∀ g ∈ glyphs, g.Printable) : Printable (.string glyphs)
  | array {items : List Json} (h : ∀ x ∈ items, Printable x) : Printable (.array items)
  | object {members : List (List Glyph × Json)} (names : ∀ m ∈ members, ∀ g ∈ m.1, g.Printable)
      (values : ∀ m ∈ members, Printable m.2) : Printable (.object members)

/-! ### Numbers -/

/-- The digits at the front of a text. -/
def frontDigits (s : List Char) : List Char := s.takeWhile Char.isDigit

theorem frontDigits_append (s : List Char) : frontDigits s ++ afterDigits s = s :=
  List.takeWhile_append_dropWhile

theorem isDigit_of_mem_frontDigits (s : List Char) : ∀ c ∈ frontDigits s, c.isDigit = true :=
  List.all_eq_true.mp List.all_takeWhile

theorem digits_cons {d : Char} (hd : d.isDigit = true) {ds : List Char}
    (hds : ∀ c ∈ ds, c.isDigit = true) : Digits (d :: ds) :=
  ⟨List.cons_ne_nil d ds, List.forall_mem_cons.mpr ⟨hd, hds⟩⟩

theorem digits_of_isEmpty {d : Char} (hd : d.isDigit = true) {s : List Char}
    (h : (afterDigits s).isEmpty = true) : Digits (d :: s) := by
  have hs : frontDigits s = s := by
    have hsplit := frontDigits_append s
    rwa [List.isEmpty_iff.mp h, List.append_nil] at hsplit
  exact digits_cons hd (hs ▸ isDigit_of_mem_frontDigits s)

theorem exponent_of_isExponent {s : List Char} (h : isExponent s = true) : Exponent s := by
  match s with
  | [] => exact .inl rfl
  | [e] => simp [isExponent] at h
  | [e, d] =>
    simp only [isExponent, Bool.and_eq_true, Bool.or_eq_true, beq_iff_eq] at h
    exact .inr ⟨e, [], [d], h.1, .inl rfl, digits_cons h.2 (by simp), rfl⟩
  | e :: sign :: d :: r =>
    simp only [isExponent, Bool.and_eq_true, Bool.or_eq_true, beq_iff_eq] at h
    obtain ⟨he, hrest⟩ := h
    split at hrest
    · rename_i hsign
      rw [Bool.and_eq_true] at hrest
      refine .inr ⟨e, [sign], d :: r, he, ?_, digits_of_isEmpty hrest.1 hrest.2, rfl⟩
      rcases hsign with rfl | rfl <;> simp
    · rw [Bool.and_eq_true] at hrest
      exact .inr ⟨e, [], sign :: d :: r, he, .inl rfl, digits_of_isEmpty hrest.1 hrest.2, rfl⟩

theorem parts_of_isFraction {s : List Char} (h : isFraction s = true) :
    ∃ fraction exponent, Fraction fraction ∧ Exponent exponent ∧ s = fraction ++ exponent := by
  unfold isFraction at h
  split at h
  · rename_i d r
    rw [Bool.and_eq_true] at h
    refine ⟨'.' :: d :: frontDigits r, afterDigits r, .inr ⟨d :: frontDigits r, ?_, rfl⟩,
      exponent_of_isExponent h.2, ?_⟩
    · exact digits_cons h.1 (isDigit_of_mem_frontDigits r)
    · rw [List.cons_append, List.cons_append, frontDigits_append]
  · exact ⟨[], s, .inl rfl, exponent_of_isExponent h, rfl⟩

theorem parts_of_isMagnitude {s : List Char} (h : isMagnitude s = true) :
    ∃ whole fraction exponent, Whole whole ∧ Fraction fraction ∧ Exponent exponent ∧
      s = whole ++ (fraction ++ exponent) := by
  unfold isMagnitude at h
  split at h
  · obtain ⟨fraction, exponent, hf, he, rfl⟩ := parts_of_isFraction h
    exact ⟨['0'], fraction, exponent, ⟨digits_cons (by decide) (by simp), fun _ => rfl⟩, hf, he, rfl⟩
  · rename_i d r hlead
    rw [Bool.and_eq_true] at h
    obtain ⟨fraction, exponent, hf, he, hrest⟩ := parts_of_isFraction h.2
    refine ⟨d :: frontDigits r, fraction, exponent, ⟨?_, ?_⟩, hf, he, ?_⟩
    · exact digits_cons h.1 (isDigit_of_mem_frontDigits r)
    · intro hzero
      exact absurd (Option.some.inj hzero) hlead
    · rw [← hrest, List.cons_append, frontDigits_append]
  · cases h

/-- **The check of a number lets its parts through and nothing else.** -/
theorem isNumber_iff_numeral {s : List Char} : isNumber s = true ↔ Numeral s := by
  refine ⟨fun h => ?_, isNumber_of_numeral⟩
  unfold isNumber at h
  split at h
  · obtain ⟨whole, fraction, exponent, hw, hf, he, rfl⟩ := parts_of_isMagnitude h
    exact ⟨['-'], whole, fraction, exponent, .inr rfl, hw, hf, he, rfl⟩
  · obtain ⟨whole, fraction, exponent, hw, hf, he, rfl⟩ := parts_of_isMagnitude h
    exact ⟨[], whole, fraction, exponent, .inl rfl, hw, hf, he, rfl⟩

/-! ### Strings -/

section

variable {cs : List Char} {glyphs : List Glyph}

theorem spelled_escapeUnit {code : Nat} (hcode : code < 0x10000) (h : Spelled cs glyphs) :
    Spelled (escapeUnit code ++ cs) (glyphOfCode code :: glyphs) := by
  have hread := read_printWidth (show 0 < 4 by decide) code
  have hfits : code % 16 ^ 4 = code := Nat.mod_eq_of_lt hcode
  rw [hfits] at hread
  exact .code hread h

theorem spelled_escapeChar (c : Char) (h : Spelled cs glyphs) :
    Spelled (escapeChar c ++ cs) (.char c :: glyphs) := by
  unfold escapeChar
  split_ifs with hquote hbackslash hnewline hreturn htab hback hfeed hcontrol
  · exact .letter (by rw [hquote]; rfl) h
  · exact .letter (by rw [hbackslash]; rfl) h
  · exact .letter (by rw [hnewline]; rfl) h
  · exact .letter (by rw [hreturn]; rfl) h
  · exact .letter (by rw [htab]; rfl) h
  · exact .letter (by rw [hback]; rfl) h
  · exact .letter (by rw [hfeed]; rfl) h
  · have hplain : (Glyph.isHigh c.toNat || Glyph.isLow c.toNat) = false := by
      simp only [Glyph.isHigh, Glyph.isLow, Bool.or_eq_false_iff, Bool.and_eq_false_iff,
        decide_eq_false_iff_not]
      omega
    have hglyph : glyphOfCode c.toNat = .char c := by
      simp only [glyphOfCode, hplain, Char.ofNat_toNat]
      rfl
    rw [← hglyph]
    exact spelled_escapeUnit (by omega) h
  · exact .plain hquote hbackslash (Nat.le_of_not_lt hcontrol) h

theorem spelled_printGlyph {g : Glyph} (hg : g.Printable) (h : Spelled cs glyphs) :
    Spelled (printGlyph g ++ cs) (g :: glyphs) := by
  cases g with
  | char c => exact spelled_escapeChar c h
  | surrogate code =>
    have hor : Glyph.isHigh code = true ∨ Glyph.isLow code = true := hg
    have hrange : code < 0x10000 := by
      simp only [Glyph.isHigh, Glyph.isLow, Bool.and_eq_true, decide_eq_true_eq] at hor
      omega
    have hglyph : glyphOfCode code = .surrogate code := by
      rw [glyphOfCode, if_pos (by rwa [Bool.or_eq_true])]
    have hunit := spelled_escapeUnit hrange h
    rwa [hglyph] at hunit
  | stray => exact absurd hg id

end

theorem spelled_glyphs {glyphs : List Glyph} (h : ∀ g ∈ glyphs, g.Printable) :
    Spelled (glyphs.flatMap printGlyph) glyphs := by
  induction glyphs with
  | nil => exact .nil
  | cons g glyphs ih =>
    rw [List.forall_mem_cons] at h
    rw [List.flatMap_cons]
    exact spelled_printGlyph h.1 (ih h.2)

theorem written_printString {glyphs : List Glyph} (h : ∀ g ∈ glyphs, g.Printable) :
    Written (printString glyphs) (.string glyphs) := .string (spelled_glyphs h)

/-! ### Trees -/

theorem printItems_eq (items : List Json) :
    printItems items = tailText ']' (items.map printChars) := by
  induction items with
  | nil => rfl
  | cons x xs ih => simp [printItems, ih, tailText]

/-- A member as it is printed. -/
def printedMember (m : List Glyph × Json) : MemberText :=
  ⟨printString m.1, m.1, printChars m.2, m.2⟩

theorem printMembers_eq (members : List (List Glyph × Json)) :
    printMembers members = tailText '\x7d' (members.map fun m => (printedMember m).chars) := by
  induction members with
  | nil => rfl
  | cons m ms ih => simp [printMembers, ih, tailText, printedMember, MemberText.chars]

/-- **A printed tree is a text of the grammar.** -/
theorem written_printChars {j : Json} (h : Printable j) : Written (printChars j) j := by
  induction h with
  | null => exact .null
  | bool b =>
    cases b with
    | true => exact .true
    | false => exact .false
  | number h => exact .number (isNumber_iff_numeral.mp h)
  | string h => exact written_printString h
  | @array items _ ih =>
    cases items with
    | nil => exact @Written.emptyArray [] (by simp [Blanks])
    | cons x xs =>
      have hwritten := @Written.array ((x :: xs).map fun y => (printChars y, y)) (by simp)
        (List.forall_mem_map.mpr ih)
      rw [printChars, printItems_eq]
      simpa [intercalate_comma, Function.comp_def] using hwritten
  | @object members names _ ih =>
    cases members with
    | nil => exact @Written.emptyObject [] (by simp [Blanks])
    | cons m ms =>
      have hwritten := @Written.object ((m :: ms).map printedMember) (by simp)
        (List.forall_mem_map.mpr fun k hk => written_printString (names k hk))
        (List.forall_mem_map.mpr ih)
      rw [printChars, printMembers_eq]
      simpa [intercalate_comma, Function.comp_def, printedMember, MemberText.chars,
        MemberText.member] using hwritten

/-- **A printed tree reads back.** -/
theorem ofString?_print {j : Json} (h : Printable j) : ofString? j.print = some j := by
  refine ofString?_of_written ?_
  rw [print, String.toList_ofList]
  exact written_printChars h

end Json

end Foreman
