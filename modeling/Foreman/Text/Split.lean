/-
Cutting a text at a separator.

Nothing but separators is lost by a cut, so the parts, joined by the separator,
give the text back.
-/
namespace Foreman.Text

/-- The parts between the separators; a text without any is one part. -/
def splitChars (sep : Char) : List Char → List (List Char)
  | [] => [[]]
  | c :: r =>
    if c = sep then [] :: splitChars sep r
    else match splitChars sep r with
      | [] => [[c]]
      | p :: ps => (c :: p) :: ps

/-- The parts of a text between the separators. -/
def split (sep : Char) (s : String) : List String :=
  (splitChars sep s.toList).map String.ofList

/-- What stands before and after the first separator. -/
def cutFirst (sep : Char) : List Char → Option (List Char × List Char)
  | [] => none
  | c :: r =>
    if c = sep then some ([], r)
    else (cutFirst sep r).map fun p => (c :: p.1, p.2)

/-- What stands before and after the last separator. -/
def cutLast (sep : Char) (s : List Char) : Option (List Char × List Char) :=
  (cutFirst sep s.reverse).map fun p => (p.2.reverse, p.1.reverse)

/-- What follows `lead` in a text that begins with it. -/
def dropLead? : List Char → List Char → Option (List Char)
  | [], s => some s
  | _ :: _, [] => none
  | a :: lead, c :: s => if a = c then dropLead? lead s else none

/-- What follows `lead` in a text that begins with it. -/
def stripLead? (lead s : String) : Option String :=
  (dropLead? lead.toList s.toList).map String.ofList

/-- A text begins with `lead`. -/
def hasLead (lead s : String) : Bool :=
  (dropLead? lead.toList s.toList).isSome

/-- What stands before and after the first place where `mark` stands. -/
def cutAt (mark : List Char) : List Char → Option (List Char × List Char)
  | [] => (dropLead? mark []).map fun r => ([], r)
  | c :: s =>
    match dropLead? mark (c :: s) with
    | some r => some ([], r)
    | none => (cutAt mark s).map fun p => (c :: p.1, p.2)

/-! ### Parts and separators -/

theorem dropLead?_append (lead s : List Char) : dropLead? lead (lead ++ s) = some s := by
  induction lead with
  | nil => cases s <;> rfl
  | cons a lead ih => simp [dropLead?, ih]

theorem dropLead?_eq_some {lead s r : List Char} (h : dropLead? lead s = some r) :
    s = lead ++ r := by
  induction lead generalizing s with
  | nil => cases s <;> simp_all [dropLead?]
  | cons a lead ih =>
    cases s with
    | nil => simp [dropLead?] at h
    | cons c s =>
      rw [dropLead?] at h
      split at h
      · rename_i hac
        rw [ih h, hac, List.cons_append]
      · simp at h

theorem cutFirst_append {sep : Char} {a : List Char} (b : List Char) (h : sep ∉ a) :
    cutFirst sep (a ++ sep :: b) = some (a, b) := by
  induction a with
  | nil => simp [cutFirst]
  | cons c a ih =>
    have hc : c ≠ sep := fun e => h (by simp [e])
    have ha : sep ∉ a := fun m => h (by simp [m])
    simp [cutFirst, hc, ih ha]

end Foreman.Text
