/-
Trimming, and lowering the case of letters.

Emails, tokens and settings are compared once their blanks are off and, for emails,
once their letters are lower case.  Either is done for good: doing it again changes
nothing.  And they may be done in either order, because a letter is not blank in
either case and what is no letter is left as it is.
-/
import Mathlib.Data.List.DropRight
import Foreman.Text.Blank

namespace Foreman.Text

/-! ### Letters -/

theorem isUpper_iff {c : Char} : c.isUpper = true ↔ 65 ≤ c.toNat ∧ c.toNat ≤ 90 := by
  show decide (65 ≤ c.val ∧ c.val ≤ 90) = true ↔ _
  rw [decide_eq_true_iff, UInt32.le_iff_toNat_le, UInt32.le_iff_toNat_le]
  rfl

/-- An upper case letter stands thirty-two places before its lower case. -/
theorem toNat_toLower {c : Char} (h : c.isUpper = true) : c.toLower.toNat = c.toNat + 32 := by
  have hrange := isUpper_iff.mp h
  have hval : c.toLower.val = c.val + ('a'.val - 'A'.val) :=
    congrArg Char.val (dif_pos (of_decide_eq_true h))
  show c.toLower.val.toNat = c.toNat + 32
  rw [hval, UInt32.toNat_add]
  show (c.toNat + 32) % 2 ^ 32 = c.toNat + 32
  omega

theorem toLower_of_not_isUpper {c : Char} (h : c.isUpper = false) : c.toLower = c :=
  dif_neg (of_decide_eq_false h)

theorem toLower_toLower (c : Char) : c.toLower.toLower = c.toLower := by
  cases h : c.isUpper with
  | true =>
      have hrange := isUpper_iff.mp h
      have hnat := toNat_toLower h
      refine toLower_of_not_isUpper ?_
      rw [Bool.eq_false_iff, ne_eq, isUpper_iff]
      omega
  | false => rw [toLower_of_not_isUpper h, toLower_of_not_isUpper h]

/-- None of the characters that can be seen in ASCII is blank. -/
theorem isBlank_eq_false_of_visible {c : Char} (hlow : 33 ≤ c.toNat) (hhigh : c.toNat ≤ 126) :
    isBlank c = false := by
  rw [isBlank, List.any_eq_false]
  intro r hr
  have hranges : ∀ r ∈ blankRanges, r.2 < 33 ∨ 126 < r.1 := by decide
  have hout := hranges r hr
  simp only [Bool.and_eq_true, decide_eq_true_eq]
  omega

/-- That no character of a text is blank can be computed. -/
theorem isBlank_eq_false_of_all {s : List Char} (h : s.all (fun c => !isBlank c) = true) :
    ∀ c ∈ s, isBlank c = false := by
  simpa using h

theorem isBlank_toLower (c : Char) : isBlank c.toLower = isBlank c := by
  cases h : c.isUpper with
  | true =>
      have hrange := isUpper_iff.mp h
      have hnat := toNat_toLower h
      rw [isBlank_eq_false_of_visible (by omega) (by omega),
        isBlank_eq_false_of_visible (by omega) (by omega)]
  | false => rw [toLower_of_not_isUpper h]

/-! ### Trimming -/

theorem trimChars_eq (s : List Char) :
    trimChars s = (s.dropWhile isBlank).rdropWhile isBlank := rfl

/-- What trimming leaves does not begin with a blank, so nothing more is taken off in front. -/
theorem dropWhile_trimChars (s : List Char) : (trimChars s).dropWhile isBlank = trimChars s := by
  cases htrim : trimChars s with
  | nil => rfl
  | cons c r =>
      obtain ⟨blanks, hprefix⟩ := List.rdropWhile_prefix isBlank (s.dropWhile isBlank)
      rw [← trimChars_eq, htrim] at hprefix
      rw [List.dropWhile_cons, isBlank_head_dropWhile hprefix.symm]
      rfl

theorem trimChars_trimChars (s : List Char) : trimChars (trimChars s) = trimChars s := by
  rw [trimChars_eq (trimChars s), dropWhile_trimChars, trimChars_eq, List.rdropWhile_idempotent]

theorem trimChars_map_toLower (s : List Char) :
    trimChars (s.map Char.toLower) = (trimChars s).map Char.toLower := by
  have hblank : isBlank ∘ Char.toLower = isBlank := funext isBlank_toLower
  rw [trimChars, List.dropWhile_map, hblank, ← List.map_reverse, List.dropWhile_map, hblank,
    ← List.map_reverse]
  rfl

theorem toLower_eq_map (s : String) : s.toLower = s.map Char.toLower := rfl

theorem trim_trim (s : String) : trim (trim s) = trim s := by
  rw [trim, trim, String.toList_ofList, trimChars_trimChars]

/-- Blanks may be taken off before the case is lowered or after. -/
theorem trim_toLower (s : String) : trim s.toLower = (trim s).toLower := by
  rw [← String.toList_inj, trim, toLower_eq_map, toLower_eq_map, String.toList_ofList,
    String.toList_map, trimChars_map_toLower, String.toList_map, trim, String.toList_ofList]

theorem toLower_idem (s : String) : s.toLower.toLower = s.toLower := by
  rw [← String.toList_inj]
  simp only [toLower_eq_map, String.toList_map, List.map_map]
  exact List.map_congr_left fun c _ => toLower_toLower c

theorem trimChars_isInfix (s : List Char) : trimChars s <:+: s :=
  (List.rdropWhile_prefix isBlank (s.dropWhile isBlank)).isInfix.trans
    (List.dropWhile_suffix isBlank).isInfix

/-- Nothing is left of a text exactly if all of it is blank. -/
theorem trimChars_eq_nil_iff {s : List Char} : trimChars s = [] ↔ s.all isBlank = true := by
  constructor
  · intro h
    rw [trimChars_eq, List.rdropWhile_eq_nil_iff] at h
    cases hrest : s.dropWhile isBlank with
    | nil => rwa [List.dropWhile_eq_nil_iff, ← List.all_eq_true] at hrest
    | cons c r =>
        have hc : isBlank c = true := h c (by rw [hrest]; exact List.mem_cons_self)
        rw [isBlank_head_dropWhile hrest] at hc
        simp at hc
  · intro h
    rw [trimChars, dropWhile_isBlank_of_all h]
    rfl

theorem trim_eq_empty_iff {s : String} : trim s = "" ↔ isBlankText s = true := by
  rw [← String.toList_inj, trim, String.toList_ofList, isBlankText]
  exact trimChars_eq_nil_iff

/-- What is in front of a trimmed text keeps it trimmed, unless it begins with a blank. -/
theorem trimChars_cons_append {c : Char} {lead s : List Char} (hc : isBlank c = false)
    (hs : trimChars s = s) (hne : s ≠ []) : trimChars (c :: lead ++ s) = c :: lead ++ s := by
  have hback : s.rdropWhile isBlank = s := by
    have hfront := dropWhile_trimChars s
    rw [hs] at hfront
    rwa [trimChars_eq, hfront] at hs
  have hfront : (c :: lead ++ s).dropWhile isBlank = c :: lead ++ s := by
    rw [List.cons_append, List.dropWhile_cons, hc]
    rfl
  rw [trimChars_eq, hfront, List.rdropWhile_eq_self_iff]
  intro _
  rw [List.getLast_append_of_ne_nil _ hne]
  exact (List.rdropWhile_eq_self_iff.mp hback) hne

/-- Whether a text is trimmed can be seen in lower case as well. -/
theorem trim_toLower_eq_iff {s : String} : trim s.toLower = s.toLower ↔ trim s = s := by
  rw [trim_toLower]
  constructor
  · intro h
    have hlength := congrArg (fun t : String => t.toList.length) h
    simp only [toLower_eq_map, String.toList_map, List.length_map, trim, String.toList_ofList]
      at hlength
    rw [trim, (trimChars_isInfix s.toList).eq_of_length hlength, String.ofList_toList]
  · intro h
    rw [h]

end Foreman.Text
