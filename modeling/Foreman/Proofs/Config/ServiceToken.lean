/-
Optional texts and service tokens, once they are read.

An optional text that is read is `Tidy`: there is something in it, and no blanks are around it.
A service token that is read is tidy as well and has its mark, however it was spelled.
Either is read as itself when it is read again, so it does not matter how often a token
is brought into its normal form on its way from the file to where it is compared.
-/
import Foreman.Config.Setting
import Foreman.Proofs.Auth.Resolution
import Foreman.Proofs.Text.Trim

namespace Foreman.Config

open Text Auth

/-! ### Optional texts -/

/-- A text with something in it and no blanks around it. -/
def Tidy (s : String) : Prop := s ≠ "" ∧ trim s = s

theorem isBlankText_of_tidy {s : String} (h : Tidy s) : isBlankText s = false := by
  cases hblank : isBlankText s with
  | false => rfl
  | true => exact absurd (h.2.symm.trans (trim_of_isBlankText hblank)) h.1

theorem tidy_of_trimmed? {s t : String} (h : trimmed? s = some t) : Tidy t := by
  unfold trimmed? at h
  split at h
  · simp at h
  · rename_i hblank
    rw [← Option.some.inj h]
    exact ⟨fun hempty => hblank (trim_eq_empty_iff.mp hempty), trim_trim s⟩

theorem trimmed?_of_tidy {s : String} (h : Tidy s) : trimmed? s = some s := by
  rw [trimmed?, isBlankText_of_tidy h, if_neg (by decide), h.2]

theorem tidy_of_nonEmpty {o : Option String} {t : String} (h : nonEmpty o = some t) : Tidy t := by
  obtain ⟨s, -, hs⟩ := Option.bind_eq_some_iff.mp h
  exact tidy_of_trimmed? hs

/-! ### Service tokens -/

/-- A text has the mark of service tokens. -/
def Marked (s : String) : Prop := ∃ r, s = serviceMark ++ r

/-- The mark does not spoil a tidy text. -/
theorem tidy_mark {s : String} (h : Tidy s) : Tidy (serviceMark ++ s) := by
  have htoList : s.toList ≠ [] := by
    intro hnil
    exact h.1 (String.toList_inj.mp hnil)
  have htrim : trimChars s.toList = s.toList := by
    have hs := congrArg String.toList h.2
    rwa [trim, String.toList_ofList] at hs
  refine ⟨serviceMark_append_ne_empty s, ?_⟩
  rw [← String.toList_inj, trim, String.toList_ofList, String.toList_append, toList_serviceMark]
  exact trimChars_cons_append (by decide) htrim htoList

/-- **A service token that is read is tidy and marked.** -/
theorem normal_of_normalizeServiceToken {s t : String} (h : normalizeServiceToken s = some t) :
    Tidy t ∧ Marked t := by
  obtain ⟨token, htoken, rfl⟩ := Option.map_eq_some_iff.mp h
  have htidy := tidy_of_trimmed? htoken
  by_cases hlead : hasLead serviceMark token = true
  · rw [if_pos hlead]
    exact ⟨htidy, hasLead_iff.mp hlead⟩
  · rw [if_neg hlead]
    exact ⟨tidy_mark htidy, token, rfl⟩

/-- **It is read as itself.** -/
theorem normalizeServiceToken_of_normal {t : String} (htidy : Tidy t) (hmarked : Marked t) :
    normalizeServiceToken t = some t := by
  rw [normalizeServiceToken, trimmed?_of_tidy htidy, Option.map_some,
    if_pos (hasLead_iff.mpr hmarked)]

/-- A marked token is spelled with its mark or without, and with blanks around it or without. -/
example : ["abc", " service:abc", "service:abc\t"].map normalizeServiceToken =
    List.replicate 3 (some "service:abc") := by
  decide +kernel

end Foreman.Config
