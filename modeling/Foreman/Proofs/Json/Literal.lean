/-
The strings of a tree stand in its text.

A string is read from the quote that opens it to the quote that closes it, whatever was read
before and whatever comes after.  So each string of a tree is what some part of the text says
on its own, its literal.  A literal has a tree of its own, and that is printed in no more bytes
than it has: neither a letter behind a backslash nor a number of four digits is any shorter than
the character that it stands for, whether that is then printed as itself or with an escape.
-/
import Foreman.Proofs.Json.Size
import Foreman.Proofs.Text.Utf8

namespace Foreman.Json

open Text

/-! ### Literals -/

/-- The units are a string on their own, and a byte of no character is one in the string. -/
structure Literal (units : List (Option Char)) (glyphs : List Glyph) : Prop where
  reads : tokens? units = some [.text glyphs]
  stray : none ∈ units → .stray ∈ glyphs

/-- The reading stands in a string. -/
def Place.inString : Place → Bool
  | .text _ | .escape _ | .code .. => true
  | _ => false

/-- What has been read of the string, in reverse. -/
def Place.glyphs : Place → List Glyph
  | .text glyphs | .escape glyphs | .code glyphs _ _ => glyphs
  | _ => []

/-- The units begin with the rest of a string, and what follows it is read on its own. -/
structure Closes (place : Place) (units : List (Option Char)) (ts : List Token)
    (literal rest : List (Option Char)) (glyphs : List Glyph) (later : List Token) : Prop where
  split : units = literal ++ rest
  first : ts = .text glyphs :: later
  reads : tokensFrom place literal = some [.text glyphs]
  goesOn : tokensFrom .between rest = some later
  kept : place.glyphs ⊆ glyphs
  stray : none ∈ literal → .stray ∈ glyphs

/-- One more unit in front of the rest of a string. -/
theorem Closes.cons {place next : Place} {u : Option Char} {units : List (Option Char)}
    {ts : List Token} {literal rest : List (Option Char)} {glyphs : List Glyph}
    {later : List Token} (h : Closes next units ts literal rest glyphs later)
    (hread : ∀ r, tokensFrom place (u :: r) = tokensFrom next r)
    (hkept : place.glyphs ⊆ next.glyphs) (hstray : u = none → .stray ∈ next.glyphs) :
    Closes place (u :: units) ts (u :: literal) rest glyphs later where
  split := by rw [h.split, List.cons_append]
  first := h.first
  reads := (hread literal).trans h.reads
  goesOn := h.goesOn
  kept := List.Subset.trans hkept h.kept
  stray := by
    intro hnone
    rcases List.mem_cons.mp hnone with hu | hnone
    · exact h.kept (hstray hu.symm)
    · exact h.stray hnone

theorem exists_closes_cons {place next : Place} {u : Option Char} {units : List (Option Char)}
    {ts : List Token}
    (h : ∃ literal rest glyphs later, Closes next units ts literal rest glyphs later)
    (hread : ∀ r, tokensFrom place (u :: r) = tokensFrom next r)
    (hkept : place.glyphs ⊆ next.glyphs) (hstray : u = none → .stray ∈ next.glyphs) :
    ∃ literal rest glyphs later, Closes place (u :: units) ts literal rest glyphs later := by
  obtain ⟨literal, rest, glyphs, later, hcloses⟩ := h
  exact ⟨u :: literal, rest, glyphs, later, hcloses.cons hread hkept hstray⟩

/-- **A string that has been opened is closed**, or nothing is read. -/
theorem closes_tokensFrom {place : Place} {units : List (Option Char)} {ts : List Token}
    (hplace : place.inString = true) (h : tokensFrom place units = some ts) :
    ∃ literal rest glyphs later, Closes place units ts literal rest glyphs later := by
  fun_induction tokensFrom place units generalizing ts with
  | case12 glyphs r =>
    obtain ⟨later, hlater, rfl⟩ := Option.map_eq_some_iff.mp h
    refine ⟨[some '"'], r, glyphs.reverse, later, rfl, rfl, ?_, hlater, ?_, by simp⟩
    · simp [tokensFrom]
    · exact fun g hg => List.mem_reverse.mpr hg
  | case13 glyphs r _ ih =>
    exact exists_closes_cons (ih rfl h) (fun r => by simp [tokensFrom]) (List.Subset.refl _)
      (by simp)
  | case15 glyphs c r hquote hslash hcontrol ih =>
    exact exists_closes_cons (ih rfl h) (fun r => by simp [tokensFrom, hquote, hslash, hcontrol])
      (List.subset_cons_self _ _) (by simp)
  | case16 glyphs r ih =>
    exact exists_closes_cons (ih rfl h) (fun r => by simp [tokensFrom]) (List.subset_cons_self _ _)
      (fun _ => List.mem_cons_self)
  | case17 glyphs r ih =>
    exact exists_closes_cons (ih rfl h) (fun r => by simp [tokensFrom]) (List.Subset.refl _)
      (by simp)
  | case18 glyphs c r hu d hletter ih =>
    exact exists_closes_cons (ih rfl h) (fun r => by simp [tokensFrom, hu, hletter])
      (List.subset_cons_self _ _) (by simp)
  | case20 glyphs missing value c r d hdigit hlast ih =>
    exact exists_closes_cons (ih rfl h) (fun r => by simp [tokensFrom, hdigit, hlast])
      (List.subset_cons_self _ _) (by simp)
  | case21 glyphs missing value c r d hdigit hmore ih =>
    exact exists_closes_cons (ih rfl h) (fun r => by simp [tokensFrom, hdigit, hmore])
      (List.Subset.refl _) (by simp)
  | case14 | case19 | case22 | case23 => cases h
  | _ => cases hplace

/-! ### The strings of a tree -/

/-- Every string of the tree has the property, names of members included. -/
inductive Strings (P : List Glyph → Prop) : Json → Prop where
  | null : Strings P .null
  | bool (b : Bool) : Strings P (.bool b)
  | number (lexeme : List Char) : Strings P (.number lexeme)
  | string {glyphs : List Glyph} (h : P glyphs) : Strings P (.string glyphs)
  | array {items : List Json} (h : ∀ x ∈ items, Strings P x) : Strings P (.array items)
  | object {members : List (List Glyph × Json)} (names : ∀ m ∈ members, P m.1)
      (values : ∀ m ∈ members, Strings P m.2) : Strings P (.object members)

section

variable {P : List Glyph → Prop}

/-- The strings of a token have the property. -/
def Token.Strings (P : List Glyph → Prop) : Token → Prop
  | .scalar value => Json.Strings P value
  | .text glyphs => P glyphs
  | _ => True

/-- The strings of what is open have the property. -/
def Open.Strings (P : List Glyph → Prop) : Open → Prop
  | .array items => ∀ x ∈ items, Json.Strings P x
  | .object members name => (∀ m ∈ members, P m.1 ∧ Json.Strings P m.2) ∧ P name

/-- The strings of what has been read behind what is open have the property. -/
def Expect.Strings (P : List Glyph → Prop) : Expect → Prop
  | .nextItem items => ∀ x ∈ items, Json.Strings P x
  | .name members | .nextName members => ∀ m ∈ members, P m.1 ∧ Json.Strings P m.2
  | .colon members key => (∀ m ∈ members, P m.1 ∧ Json.Strings P m.2) ∧ P key
  | .nothing j => Json.Strings P j
  | _ => True

/-- The strings of all that has been read have the property. -/
structure StateStrings (P : List Glyph → Prop) (state : Expect × List Open) : Prop where
  read : state.1.Strings P
  stack : ∀ o ∈ state.2, o.Strings P

theorem strings_complete {value : Json} {stack : List Open} (hvalue : Strings P value)
    (hstack : ∀ o ∈ stack, o.Strings P) : StateStrings P (complete value stack) := by
  cases stack with
  | nil => exact ⟨hvalue, hstack⟩
  | cons o stack =>
    rw [List.forall_mem_cons] at hstack
    obtain ⟨ho, hstack⟩ := hstack
    cases o with
    | array items => exact ⟨List.forall_mem_cons.mpr ⟨hvalue, ho⟩, hstack⟩
    | object members name => exact ⟨List.forall_mem_cons.mpr ⟨⟨ho.2, hvalue⟩, ho.1⟩, hstack⟩

theorem strings_readValue {stack : List Open} {t : Token} {next : Expect × List Open}
    (hstack : ∀ o ∈ stack, o.Strings P) (ht : t.Strings P) (h : readValue stack t = some next) :
    StateStrings P next := by
  cases t with
  | openArray =>
    cases h
    exact ⟨trivial, hstack⟩
  | openObject =>
    cases h
    exact ⟨trivial, hstack⟩
  | scalar value =>
    cases h
    exact strings_complete ht hstack
  | text glyphs =>
    cases h
    exact strings_complete (.string ht) hstack
  | _ => cases h

/-- A token brings no strings but its own. -/
theorem strings_readToken {state next : Expect × List Open} {t : Token}
    (hstate : StateStrings P state) (ht : t.Strings P) (h : readToken state t = some next) :
    StateStrings P next := by
  obtain ⟨hread, hstack⟩ := hstate
  unfold readToken at h
  split at h
  · exact strings_readValue hstack ht h
  · cases h
    exact strings_complete (.array (by simp)) hstack
  · exact strings_readValue (List.forall_mem_cons.mpr ⟨by simp [Open.Strings], hstack⟩) ht h
  · cases h
    exact ⟨trivial, List.forall_mem_cons.mpr ⟨hread, hstack⟩⟩
  · cases h
    exact strings_complete (.array fun x hx => hread x (List.mem_reverse.mp hx)) hstack
  · cases h
    exact strings_complete (.object (by simp) (by simp)) hstack
  · cases h
    exact ⟨⟨by simp, ht⟩, hstack⟩
  · cases h
    exact ⟨⟨hread, ht⟩, hstack⟩
  · cases h
    exact ⟨trivial, List.forall_mem_cons.mpr ⟨hread, hstack⟩⟩
  · cases h
    exact ⟨hread, hstack⟩
  · cases h
    exact strings_complete (.object (fun m hm => (hread m (List.mem_reverse.mp hm)).1)
      fun m hm => (hread m (List.mem_reverse.mp hm)).2) hstack
  · cases h

theorem strings_readTokens {state final : Expect × List Open} {ts : List Token}
    (hstate : StateStrings P state) (hts : ∀ t ∈ ts, t.Strings P)
    (h : readTokens state ts = some final) : StateStrings P final := by
  induction ts generalizing state with
  | nil =>
    cases h
    exact hstate
  | cons t ts ih =>
    rw [List.forall_mem_cons] at hts
    obtain ⟨next, hnext, hrest⟩ := Option.bind_eq_some_iff.mp h
    exact ih (strings_readToken hstate hts.1 hnext) hts.2 hrest

/-- **The strings of a tree are those of its tokens.** -/
theorem strings_ofTokens? {ts : List Token} {j : Json} (hts : ∀ t ∈ ts, t.Strings P)
    (h : ofTokens? ts = some j) : Strings P j := by
  unfold ofTokens? at h
  split at h
  · rename_i value stack hread
    cases h
    have hstart : StateStrings P (.value, []) := ⟨trivial, by simp⟩
    exact (strings_readTokens hstart hts hread).read
  · cases h

/-! ### The strings of tokens -/

/-- What is about to be said holds no string without the property. -/
def Place.Strings (P : List Glyph → Prop) : Place → Prop
  | .name _ value => Json.Strings P value
  | _ => True

/-- The tokens that begin after the place. -/
def Place.later (place : Place) (ts : List Token) : List Token :=
  if place.inString then ts.tail else ts

theorem strings_begin? {c : Char} {token : Option Token} {place : Place}
    (h : begin? c = some (token, place)) :
    (∀ t ∈ token, t.Strings P) ∧ place.Strings P ∧
      (place.inString = true → c = '"' ∧ token = none ∧ place = .text []) := by
  rw [begin?] at h
  iterate 12
    rcases ite_eq_iff.mp h with ⟨hc, heq⟩ | ⟨-, h⟩
    · obtain ⟨rfl, rfl⟩ := Prod.mk.inj (Option.some.inj heq)
      simp [Token.Strings, Place.Strings, Place.inString, Strings.null, Strings.bool, hc]
  cases h

theorem strings_numberToken? {reversed : List Char} {t : Token}
    (h : numberToken? reversed = some t) : t.Strings P := by
  unfold numberToken? at h
  split at h
  · cases h
    exact .number _
  · cases h

/-- **A string among the tokens is a literal of the units**, if the reading did not begin in it. -/
theorem strings_tokensFrom {all units : List (Option Char)} {place : Place} {ts : List Token}
    (hP : ∀ literal glyphs, literal <:+: all → Literal literal glyphs → P glyphs)
    (hunits : units <:+ all) (hplace : place.Strings P) (h : tokensFrom place units = some ts) :
    ∀ t ∈ place.later ts, t.Strings P := by
  have hbegins {c : Char} {r : List (Option Char)} {token : Option Token} {next : Place}
      {rest : List Token} (hbegin : begin? c = some (token, next)) (hunits : some c :: r <:+ all)
      (hrest : tokensFrom next r = some rest) (ih : ∀ t ∈ next.later rest, t.Strings P) :
      ∀ t ∈ rest, t.Strings P := by
    obtain ⟨-, -, hquote⟩ := strings_begin? (P := P) hbegin
    cases hin : next.inString with
    | false => rwa [Place.later, hin] at ih
    | true =>
      -- the string that begins here is a literal, whatever comes after it
      obtain ⟨rfl, rfl, rfl⟩ := hquote hin
      obtain ⟨literal, after, glyphs, later, hcloses⟩ := closes_tokensFrom hin hrest
      rw [hcloses.first] at ih ⊢
      have hinfix : some '"' :: literal <:+: all := by
        refine List.IsInfix.trans (List.IsPrefix.isInfix ?_) hunits.isInfix
        exact ⟨after, by rw [List.cons_append, hcloses.split]⟩
      have hliteral : Literal (some '"' :: literal) glyphs := by
        refine ⟨?_, fun hnone => hcloses.stray (List.mem_of_ne_of_mem (by simp) hnone)⟩
        rw [tokens?, tokensFrom, hbegin]
        exact hcloses.reads
      exact List.forall_mem_cons.mpr ⟨hP _ _ hinfix hliteral, ih⟩
  have hrests {u : Option Char} {r : List (Option Char)} (hunits : u :: r <:+ all) : r <:+ all :=
    (List.suffix_cons u r).trans hunits
  fun_induction tokensFrom place units generalizing ts with
  | case1 =>
    cases h
    simp [Place.later]
  | case2 c r t place hbegin ih =>
    obtain ⟨rest, hrest, rfl⟩ := Option.map_eq_some_iff.mp h
    obtain ⟨htoken, hnext, -⟩ := strings_begin? hbegin
    exact List.forall_mem_cons.mpr ⟨htoken t rfl,
      hbegins hbegin hunits hrest (ih (hrests hunits) hnext hrest)⟩
  | case3 c r place hbegin ih =>
    obtain ⟨-, hnext, -⟩ := strings_begin? hbegin
    exact hbegins hbegin hunits h (ih (hrests hunits) hnext h)
  | case5 value c r ih =>
    obtain ⟨rest, hrest, rfl⟩ := Option.map_eq_some_iff.mp h
    exact List.forall_mem_cons.mpr ⟨hplace, ih (hrests hunits) trivial hrest⟩
  | case7 b letters value c r ih => exact ih (hrests hunits) hplace h
  | case9 lexeme =>
    obtain ⟨t, ht, rfl⟩ := Option.map_eq_some_iff.mp h
    exact List.forall_mem_singleton.mpr (strings_numberToken? ht)
  | case10 lexeme c r _ ih => exact ih (hrests hunits) trivial h
  | case11 lexeme c r _ ih =>
    obtain ⟨number, hnumber, h⟩ := Option.bind_eq_some_iff.mp h
    have hfirst : number.Strings P := strings_numberToken? hnumber
    cases hbegin : begin? c with
    | none => simp [hbegin] at h
    | some begun =>
      obtain ⟨token, next⟩ := begun
      obtain ⟨htoken, hnext, -⟩ := strings_begin? (P := P) hbegin
      rw [hbegin] at h
      cases token with
      | none =>
        obtain ⟨rest, hrest, rfl⟩ := Option.map_eq_some_iff.mp h
        exact List.forall_mem_cons.mpr ⟨hfirst,
          hbegins hbegin hunits hrest (ih next (hrests hunits) hnext hrest)⟩
      | some t =>
        obtain ⟨rest, hrest, rfl⟩ := Option.map_eq_some_iff.mp h
        exact List.forall_mem_cons.mpr ⟨hfirst, List.forall_mem_cons.mpr ⟨htoken t rfl,
          hbegins hbegin hunits hrest (ih next (hrests hunits) hnext hrest)⟩⟩
  | case12 glyphs r ih =>
    obtain ⟨rest, hrest, rfl⟩ := Option.map_eq_some_iff.mp h
    exact ih (hrests hunits) trivial hrest
  | case13 | case15 | case16 | case17 | case18 | case20 | case21 =>
    rename_i ih
    exact ih (hrests hunits) trivial h
  | case4 | case6 | case8 | case14 | case19 | case22 | case23 => cases h

end

/-! ### Texts of literals -/

theorem stray_notMem_of_chars? {glyphs : List Glyph} {cs : List Char}
    (h : Glyph.chars? glyphs = some cs) : .stray ∉ glyphs := by
  fun_induction Glyph.chars? glyphs generalizing cs with
  | case1 => exact List.not_mem_nil
  | case2 c r ih =>
    obtain ⟨rest, hrest, -⟩ := Option.map_eq_some_iff.mp h
    simp [ih hrest]
  | case3 hi lo r hpair ih =>
    obtain ⟨rest, hrest, -⟩ := Option.map_eq_some_iff.mp h
    simp [ih hrest]
  | case4 | case5 => cases h

theorem exists_chars {units : List (Option Char)} (h : none ∉ units) :
    ∃ chars : List Char, units = chars.map some := by
  induction units with
  | nil => exact ⟨[], rfl⟩
  | cons u r ih =>
    rw [List.mem_cons, not_or] at h
    obtain ⟨chars, rfl⟩ := ih h.2
    obtain ⟨c, rfl⟩ := Option.ne_none_iff_exists'.mp (Ne.symm h.1)
    exact ⟨c :: chars, rfl⟩

/-- The literal of a string that has a text is a text itself. -/
theorem Literal.exists_text {units : List (Option Char)} {glyphs : List Glyph} {s : String}
    (h : Literal units glyphs) (hs : Glyph.text? glyphs = some s) :
    ∃ literal : String, units = literal.toList.map some ∧
      ofString? literal = some (.string glyphs) := by
  obtain ⟨cs, hcs, -⟩ := Option.map_eq_some_iff.mp hs
  have hnone : none ∉ units := fun hnone => stray_notMem_of_chars? hcs (h.stray hnone)
  obtain ⟨chars, rfl⟩ := exists_chars hnone
  refine ⟨String.ofList chars, by rw [String.toList_ofList], ?_⟩
  rw [ofString?, String.toList_ofList, ofUnits?, h.reads]
  rfl

/-- **Each string of a tree that has a text is what a part of the text of the tree says.** -/
theorem literals_ofUnits? {units : List (Option Char)} {j : Json} (h : ofUnits? units = some j) :
    Strings (fun glyphs => ∀ s, Glyph.text? glyphs = some s → ∃ literal : String,
      literal.toList.map some <:+: units ∧ ofString? literal = some (.string glyphs)) j := by
  obtain ⟨ts, htokens, htree⟩ := Option.bind_eq_some_iff.mp h
  refine strings_ofTokens? (fun t ht => ?_) htree
  have hbetween {P : List Glyph → Prop} : Place.between.Strings P := trivial
  refine strings_tokensFrom (fun units' glyphs hinfix hliteral s hs => ?_)
    (List.suffix_refl units) hbetween htokens t ht
  obtain ⟨literal, rfl, hread⟩ := hliteral.exists_text hs
  exact ⟨literal, hinfix, hread⟩

/-- **A text is printed in no more bytes than the literal that it was read from.** -/
theorem utf8ByteSize_ofText_le {literal : String} {j : Json} {s : String}
    (h : ofString? literal = some j) (hs : j.text? = some s) :
    (ofText s).print.utf8ByteSize ≤ literal.utf8ByteSize := by
  have htext := size_text? hs
  have hprint := utf8ByteSize_print_le h
  rw [utf8ByteSize_print] at hprint ⊢
  exact htext.trans hprint

/-- A text that stands in some bytes has no more bytes than they are. -/
theorem utf8ByteSize_le_length {body : List UInt8} {s : String}
    (h : s.toList.map some <:+: unitsOfBytes body) : s.utf8ByteSize ≤ body.length := by
  have hpart : ((s.toList.map some).map unitBytes).sum ≤ ((unitsOfBytes body).map unitBytes).sum :=
    (h.sublist.map unitBytes).sum_le_sum fun _ _ => Nat.zero_le _
  have hchars : ((s.toList.map some).map unitBytes).sum = s.utf8ByteSize := by
    rw [← unitsSize_text, unitsSize, List.map_map, List.map_map]
    rfl
  rw [← hchars]
  exact hpart.trans (sum_unitBytes_le body)

end Foreman.Json
