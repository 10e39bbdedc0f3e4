/-
White space, and what is left of a text without it at its ends.

The table is the Unicode property `White_Space`, which is wider than the ASCII
blanks and narrower than "invisible": a zero width space and a byte order mark
are ordinary characters.
-/
namespace Foreman.Text

/-- The closed ranges of code points with the property `White_Space`. -/
def blankRanges : List (Nat × Nat) :=
  [(0x09, 0x0d), (0x20, 0x20), (0x85, 0x85), (0xa0, 0xa0), (0x1680, 0x1680), (0x2000, 0x200a),
   (0x2028, 0x2029), (0x202f, 0x202f), (0x205f, 0x205f), (0x3000, 0x3000)]

/-- A character is blank when it lies in one of the ranges. -/
def isBlank (c : Char) : Bool :=
  blankRanges.any fun r => decide (r.1 ≤ c.toNat) && decide (c.toNat ≤ r.2)

/-- The characters between the blanks at the front and the blanks at the back. -/
def trimChars (s : List Char) : List Char :=
  ((s.dropWhile isBlank).reverse.dropWhile isBlank).reverse

/-- A text without the blanks at its two ends. -/
def trim (s : String) : String :=
  String.ofList (trimChars s.toList)

/-- A text is blank when nothing is left of it. -/
def isBlankText (s : String) : Bool :=
  s.toList.all isBlank

/-- A trimmed text, if there is anything in it. -/
def trimmed? (s : String) : Option String :=
  if isBlankText s then none else some (trim s)

/-! ### Trimming -/

/-- What trimming leaves does not begin with a blank. -/
theorem isBlank_head_dropWhile {s : List Char} {c : Char} {r : List Char}
    (h : s.dropWhile isBlank = c :: r) : isBlank c = false := by
  induction s with
  | nil => simp at h
  | cons d s ih =>
    rw [List.dropWhile_cons] at h
    split at h
    · exact ih h
    · rename_i hd
      obtain ⟨rfl, -⟩ := List.cons.inj h
      simpa using hd

theorem dropWhile_isBlank_of_all {s : List Char} (h : s.all isBlank = true) :
    s.dropWhile isBlank = [] := by
  induction s with
  | nil => rfl
  | cons c r ih =>
    rw [List.all_cons, Bool.and_eq_true] at h
    rw [List.dropWhile_cons, if_pos h.1]
    exact ih h.2

/-- A blank text trims to the empty text. -/
theorem trim_of_isBlankText {s : String} (h : isBlankText s = true) : trim s = "" := by
  simp [trim, trimChars, dropWhile_isBlank_of_all h]

end Foreman.Text
