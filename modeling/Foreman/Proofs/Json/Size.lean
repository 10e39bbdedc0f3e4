/-
A tree is printed in no more bytes than it was read from.

Reading is followed with two potentials, one for each of its passes.  What the first pass is
inside of, and what the second pass has open, is worth the bytes that it will be printed in
as far as it is known; no unit and no token that comes in adds more to that than its own
bytes.  So whatever the text says with escapes, blanks and exponents, its tree is printed at
its length or below.

The values of a record are parts of its tree that do not overlap, so they share its bytes.
-/
import Mathlib.Algebra.Order.BigOperators.Group.List
import Mathlib.Algebra.Ring.Nat
import Mathlib.Data.List.Nodup
import Mathlib.Data.List.Perm.Subperm
import Mathlib.Data.String.Basic
import Foreman.Json.Printer
import Foreman.Json.Record

namespace Foreman

open Text

/-- The bytes of a glyph as it stands in a string. -/
def Glyph.size (g : Glyph) : Nat := String.utf8Len (Json.printGlyph g)

namespace Json

/-- The bytes of a tree as it is printed. -/
def size (j : Json) : Nat := String.utf8Len (printChars j)

/-- The bytes of a string, its quotes included. -/
def stringSize (glyphs : List Glyph) : Nat := (glyphs.map Glyph.size).sum + 2

/-- The bytes of items, each with the mark behind it. -/
def itemsSize (items : List Json) : Nat := (items.map fun x => x.size + 1).sum

/-- The bytes of a member with the marks behind its name and its value. -/
def memberSize (m : List Glyph × Json) : Nat := stringSize m.1 + 1 + (m.2.size + 1)

/-- The bytes of members. -/
def membersSize (members : List (List Glyph × Json)) : Nat := (members.map memberSize).sum

/-! ### The size of a tree -/

theorem utf8ByteSize_print (j : Json) : j.print.utf8ByteSize = j.size :=
  String.utf8ByteSize_ofList _

theorem utf8Len_ascii {c : Char} (h : c.toNat < 128) : c.utf8Size = 1 := by
  rw [Char.utf8Size_eq_one_iff, UInt32.le_iff_toNat_le]
  exact Nat.le_of_lt_succ h

theorem utf8Len_printString (glyphs : List Glyph) :
    String.utf8Len (printString glyphs) = stringSize glyphs := by
  have hquote : '"'.utf8Size = 1 := rfl
  have hglyphs : String.utf8Len (glyphs.flatMap printGlyph) = (glyphs.map Glyph.size).sum := by
    induction glyphs with
    | nil => rfl
    | cons g rest ih =>
      rw [List.flatMap_cons, String.utf8Len_append, ih]
      rfl
  simp [printString, hglyphs, hquote, stringSize]

@[simp] theorem size_null : size .null = 4 := rfl

@[simp] theorem size_bool (b : Bool) : size (.bool b) = if b then 4 else 5 := by
  cases b <;> rfl

@[simp] theorem size_number (lexeme : List Char) :
    size (.number lexeme) = String.utf8Len lexeme := by
  rw [size, printChars]

@[simp] theorem size_string (glyphs : List Glyph) : size (.string glyphs) = stringSize glyphs := by
  rw [size, printChars, utf8Len_printString]

theorem utf8Len_printItems (items : List Json) :
    String.utf8Len (printItems items) = itemsSize items + 1 := by
  induction items with
  | nil => rfl
  | cons x xs ih =>
    have hcomma : ','.utf8Size = 1 := rfl
    simp only [printItems, List.cons_append, String.utf8Len_cons, String.utf8Len_append, ih, hcomma,
      itemsSize, List.map_cons, List.sum_cons, size]
    omega

theorem utf8Len_printMembers (members : List (List Glyph × Json)) :
    String.utf8Len (printMembers members) = membersSize members + 1 := by
  induction members with
  | nil => rfl
  | cons m ms ih =>
    have hcomma : ','.utf8Size = 1 := rfl
    have hcolon : ':'.utf8Size = 1 := rfl
    simp only [printMembers, List.cons_append, String.utf8Len_cons, String.utf8Len_append,
      utf8Len_printString, ih, hcomma, hcolon, membersSize, List.map_cons, List.sum_cons,
      memberSize, size]
    omega

/-- An array is an opening bracket, and its items each with the mark behind it. -/
theorem size_array (items : List Json) : size (.array items) = 1 + max 1 (itemsSize items) := by
  cases items with
  | nil => rfl
  | cons x xs =>
    have hopen : '['.utf8Size = 1 := rfl
    simp only [size, printChars, List.cons_append, String.utf8Len_cons, String.utf8Len_append,
      utf8Len_printItems, hopen, itemsSize, List.map_cons, List.sum_cons]
    omega

theorem size_object (members : List (List Glyph × Json)) :
    size (.object members) = 1 + max 1 (membersSize members) := by
  cases members with
  | nil => rfl
  | cons m ms =>
    have hopen : '{'.utf8Size = 1 := rfl
    have hcolon : ':'.utf8Size = 1 := rfl
    simp only [size, printChars, List.cons_append, String.utf8Len_cons, String.utf8Len_append,
      utf8Len_printString, utf8Len_printMembers, hopen, hcolon, membersSize, List.map_cons,
      List.sum_cons, memberSize]
    omega

/-! ### The size of a glyph -/

theorem utf8Size_digit (n : Nat) : (Hex.digit (n % 16)).utf8Size = 1 := by
  have hall : ∀ d < 16, (Hex.digit d).utf8Size = 1 := by decide
  exact hall _ (Nat.mod_lt _ (by decide))

theorem utf8Len_escapeUnit (code : Nat) : String.utf8Len (escapeUnit code) = 6 := by
  have hslash : '\\'.utf8Size = 1 := rfl
  have hu : 'u'.utf8Size = 1 := rfl
  simp [escapeUnit, Hex.printWidth, utf8Size_digit, hslash, hu]

/-- The characters that are escaped by a letter. -/
def lettered : List Char := ['"', '\\', '\n', '\r', '\t', '\x08', '\x0c']

/-- A character is escaped by a letter, or by its number, or not at all. -/
theorem size_char (c : Char) :
    (Glyph.char c).size =
      if c ∈ lettered then 2 else if c.toNat < 0x20 then 6 else c.utf8Size := by
  have hslash : '\\'.utf8Size = 1 := rfl
  by_cases hc : c ∈ lettered
  · rw [if_pos hc]
    have hall : (lettered.all fun c => decide ((Glyph.char c).size = 2)) = true := by decide
    exact of_decide_eq_true (List.all_eq_true.mp hall c hc)
  · rw [if_neg hc]
    simp only [lettered, List.mem_cons, List.not_mem_nil, or_false, not_or] at hc
    simp only [Glyph.size, printGlyph, escapeChar, hc, if_false]
    split
    · exact utf8Len_escapeUnit c.toNat
    · simp

theorem size_char_le (c : Char) : (Glyph.char c).size ≤ 6 := by
  have hfour := c.utf8Size_le_four
  rw [size_char]
  split
  · decide
  · split <;> omega

/-- A character that may stand for itself does. -/
theorem size_char_of_plain {c : Char} (hquote : c ≠ '"') (hslash : c ≠ '\\')
    (hcontrol : ¬ c.toNat < 0x20) : (Glyph.char c).size = c.utf8Size := by
  rw [size_char, if_neg, if_neg hcontrol]
  intro hc
  have hall : (lettered.all fun c => decide (c = '"' ∨ c = '\\' ∨ c.toNat < 0x20)) = true := by
    decide
  rcases of_decide_eq_true (List.all_eq_true.mp hall c hc) with h | h | h
  · exact hquote h
  · exact hslash h
  · exact hcontrol h

theorem size_unescape {c d : Char} (h : unescape? c = some d) : (Glyph.char d).size ≤ 2 := by
  unfold unescape? at h
  split_ifs at h <;> cases h <;> decide

theorem size_glyphOfCode_le (code : Nat) : (glyphOfCode code).size ≤ 6 := by
  unfold glyphOfCode
  split
  · exact (utf8Len_escapeUnit code).le
  · exact size_char_le _

/-! ### From units to tokens -/

/-- The bytes of a unit; a byte that belongs to no character is printed as one of three bytes. -/
def unitSize : Option Char → Nat
  | some c => c.utf8Size
  | none => 3

/-- The bytes of units. -/
def unitsSize (units : List (Option Char)) : Nat := (units.map unitSize).sum

theorem unitsSize_text (s : String) : unitsSize (s.toList.map some) = s.utf8ByteSize := by
  rw [← String.utf8Len_toList, unitsSize]
  induction s.toList with
  | nil => rfl
  | cons c cs ih =>
    rw [List.map_cons, List.map_cons, List.sum_cons, ih, String.utf8Len_cons, unitSize, Nat.add_comm]

@[simp] theorem unitsSize_nil : unitsSize [] = 0 := rfl

@[simp] theorem unitsSize_cons (u : Option Char) (units : List (Option Char)) :
    unitsSize (u :: units) = unitSize u + unitsSize units := List.sum_cons

/-- The bytes that a token is printed in. -/
def Token.size : Token → Nat
  | .scalar value => value.size
  | .text glyphs => stringSize glyphs
  | _ => 1

/-- The bytes that have been read of the token that the reading is inside of, as far as they will
be printed. -/
def Place.size : Place → Nat
  | .between => 0
  | .name rest value => value.size - rest.length
  | .number lexeme => String.utf8Len lexeme
  | .text glyphs => 1 + (glyphs.map Glyph.size).sum
  | .escape glyphs => 2 + (glyphs.map Glyph.size).sum
  | .code glyphs missing _ => 7 - missing + (glyphs.map Glyph.size).sum

theorem size_begin? {c : Char} {token : Option Token} {place : Place}
    (h : begin? c = some (token, place)) :
    (token.elim 0 Token.size) + place.size ≤ c.utf8Size := by
  have hpos : 1 ≤ c.utf8Size := c.utf8Size_pos
  rw [begin?] at h
  iterate 12
    rcases ite_eq_iff.mp h with ⟨-, heq⟩ | ⟨-, h⟩
    · obtain ⟨rfl, rfl⟩ := Prod.mk.inj (Option.some.inj heq)
      simp [Token.size, Place.size, hpos]
  cases h

theorem size_numberToken? {reversed : List Char} {t : Token}
    (h : numberToken? reversed = some t) : t.size = String.utf8Len reversed := by
  unfold numberToken? at h
  split at h
  · cases h
    simp [Token.size]
  · cases h

/-- The bytes of tokens. -/
def tokensSize (ts : List Token) : Nat := (ts.map Token.size).sum

@[simp] theorem tokensSize_nil : tokensSize [] = 0 := rfl

@[simp] theorem tokensSize_cons (t : Token) (ts : List Token) :
    tokensSize (t :: ts) = t.size + tokensSize ts := List.sum_cons

/-- **The tokens of units take no more bytes than the units.** -/
theorem size_tokensFrom {place : Place} {units : List (Option Char)} {ts : List Token}
    (h : tokensFrom place units = some ts) : tokensSize ts ≤ place.size + unitsSize units := by
  fun_induction tokensFrom place units generalizing ts with
  | case1 =>
    cases h
    exact Nat.zero_le _
  | case2 c r t place hbegin ih =>
    obtain ⟨rest, hrest, rfl⟩ := Option.map_eq_some_iff.mp h
    have hfirst := size_begin? hbegin
    have hlater := ih hrest
    simp only [Option.elim_some] at hfirst
    simp only [tokensSize_cons, unitsSize_cons, unitSize]
    omega
  | case3 c r place hbegin ih =>
    have hfirst := size_begin? hbegin
    have hlater := ih h
    simp only [Option.elim_none] at hfirst
    simp only [unitsSize_cons, unitSize]
    omega
  | case5 value c r ih =>
    -- the last letter of a name
    obtain ⟨rest, hrest, rfl⟩ := Option.map_eq_some_iff.mp h
    have hpos := c.utf8Size_pos
    have hlater := ih hrest
    simp only [tokensSize_cons, unitsSize_cons, unitSize, Token.size, Place.size,
      List.length_singleton] at hlater ⊢
    omega
  | case7 b letters value c r ih =>
    have hpos := c.utf8Size_pos
    have hlater := ih h
    simp only [unitsSize_cons, unitSize, Place.size, List.length_cons] at hlater ⊢
    omega
  | case9 lexeme =>
    obtain ⟨t, ht, rfl⟩ := Option.map_eq_some_iff.mp h
    have hnumber := size_numberToken? ht
    simp [Place.size, hnumber]
  | case10 lexeme c r _ ih =>
    have hlater := ih h
    simp only [unitsSize_cons, unitSize, Place.size, String.utf8Len_cons] at hlater ⊢
    omega
  | case11 lexeme c r _ ih =>
    -- a number ends where the next token begins
    obtain ⟨number, hnumber, h⟩ := Option.bind_eq_some_iff.mp h
    have hsize := size_numberToken? hnumber
    cases hbegin : begin? c with
    | none => simp [hbegin] at h
    | some begun =>
      obtain ⟨token, place⟩ := begun
      have hfirst := size_begin? hbegin
      rw [hbegin] at h
      cases token with
      | none =>
        obtain ⟨rest, hrest, rfl⟩ := Option.map_eq_some_iff.mp h
        have hlater := ih place hrest
        simp only [Option.elim_none] at hfirst
        simp only [tokensSize_cons, unitsSize_cons, unitSize, Place.size, hsize]
        omega
      | some t =>
        obtain ⟨rest, hrest, rfl⟩ := Option.map_eq_some_iff.mp h
        have hlater := ih place hrest
        simp only [Option.elim_some] at hfirst
        simp only [tokensSize_cons, unitsSize_cons, unitSize, Place.size, hsize]
        omega
  | case12 glyphs r ih =>
    obtain ⟨rest, hrest, rfl⟩ := Option.map_eq_some_iff.mp h
    have hquote : '"'.utf8Size = 1 := rfl
    have hlater := ih hrest
    simp only [tokensSize_cons, unitsSize_cons, unitSize, Token.size, Place.size, stringSize,
      List.map_reverse, List.sum_reverse, hquote] at hlater ⊢
    omega
  | case13 glyphs r _ ih =>
    have hslash : '\\'.utf8Size = 1 := rfl
    have hlater := ih h
    simp only [unitsSize_cons, unitSize, Place.size, hslash] at hlater ⊢
    omega
  | case15 glyphs c r hquote hslash hcontrol ih =>
    have hchar := size_char_of_plain hquote hslash hcontrol
    have hlater := ih h
    simp only [unitsSize_cons, unitSize, Place.size, List.map_cons, List.sum_cons, hchar] at hlater ⊢
    omega
  | case16 glyphs r ih =>
    have hstray : Glyph.stray.size = 3 := rfl
    have hlater := ih h
    simp only [unitsSize_cons, unitSize, Place.size, List.map_cons, List.sum_cons, hstray]
      at hlater ⊢
    omega
  | case17 glyphs r ih =>
    have hletter : 'u'.utf8Size = 1 := rfl
    have hlater := ih h
    simp only [unitsSize_cons, unitSize, Place.size, hletter] at hlater ⊢
    omega
  | case18 glyphs c r _ d hletter ih =>
    have hpos := c.utf8Size_pos
    have hchar := size_unescape hletter
    have hlater := ih h
    simp only [unitsSize_cons, unitSize, Place.size, List.map_cons, List.sum_cons] at hlater ⊢
    omega
  | case20 glyphs missing value c r d _ hlast ih =>
    -- the last digit of an escape
    have hpos := c.utf8Size_pos
    have hglyph := size_glyphOfCode_le (16 * value + d)
    have hlater := ih h
    simp only [unitsSize_cons, unitSize, Place.size, List.map_cons, List.sum_cons] at hlater ⊢
    omega
  | case21 glyphs missing value c r d _ hmore ih =>
    have hpos := c.utf8Size_pos
    have hlater := ih h
    simp only [unitsSize_cons, unitSize, Place.size] at hlater ⊢
    omega
  | case4 | case6 | case8 | case14 | case19 | case22 | case23 => cases h

/-! ### From tokens to trees -/

/-- The bytes of what is open, as far as it has been read. -/
def Open.size : Open → Nat
  | .array items => 1 + itemsSize items
  | .object members name => 1 + membersSize members + stringSize name + 1

/-- The bytes of what has been read behind what is open. -/
def Expect.size : Expect → Nat
  | .value => 0
  | .firstItem => 1
  | .nextItem items => max 1 (itemsSize items)
  | .firstName => 1
  | .name members => 1 + membersSize members
  | .colon members key => 1 + membersSize members + stringSize key
  | .nextName members => max 1 (membersSize members)
  | .nothing j => j.size

/-- The bytes of all that has been read. -/
def stateSize (state : Expect × List Open) : Nat :=
  state.1.size + (state.2.map Open.size).sum

theorem stateSize_complete (value : Json) (stack : List Open) :
    stateSize (complete value stack) = value.size + (stack.map Open.size).sum := by
  cases stack with
  | nil => simp [complete, stateSize, Expect.size]
  | cons o stack =>
    cases o with
    | array items =>
      simp only [complete, stateSize, Expect.size, Open.size, itemsSize, List.map_cons,
        List.sum_cons]
      omega
    | object members name =>
      simp only [complete, stateSize, Expect.size, Open.size, membersSize, memberSize,
        List.map_cons, List.sum_cons]
      omega

theorem stateSize_readValue {stack : List Open} {t : Token} {next : Expect × List Open}
    (h : readValue stack t = some next) :
    stateSize next = t.size + (stack.map Open.size).sum := by
  unfold readValue at h
  split at h
  · cases h
    simp [stateSize, Expect.size, Token.size]
  · cases h
    simp [stateSize, Expect.size, Token.size]
  · cases h
    exact stateSize_complete ..
  · cases h
    rw [stateSize_complete, size_string]
    rfl
  · cases h

theorem itemsSize_reverse (items : List Json) : itemsSize items.reverse = itemsSize items := by
  rw [itemsSize, List.map_reverse, List.sum_reverse, itemsSize]

theorem membersSize_reverse (members : List (List Glyph × Json)) :
    membersSize members.reverse = membersSize members := by
  rw [membersSize, List.map_reverse, List.sum_reverse, membersSize]

/-- A token adds no more than its own bytes. -/
theorem stateSize_readToken {state next : Expect × List Open} {t : Token}
    (h : readToken state t = some next) : stateSize next ≤ stateSize state + t.size := by
  unfold readToken at h
  split at h
  · rw [stateSize_readValue h]
    simp only [stateSize, Expect.size]
    omega
  · cases h
    rw [stateSize_complete, size_array]
    simp only [stateSize, Expect.size, Token.size, itemsSize, List.map_nil, List.sum_nil]
    omega
  · rw [stateSize_readValue h]
    simp only [stateSize, Expect.size, Open.size, itemsSize, List.map_cons, List.sum_cons,
      List.map_nil, List.sum_nil]
    omega
  · cases h
    simp only [stateSize, Expect.size, Open.size, Token.size, List.map_cons, List.sum_cons]
    omega
  · cases h
    rw [stateSize_complete, size_array, itemsSize_reverse]
    simp only [stateSize, Expect.size, Token.size]
    omega
  · cases h
    rw [stateSize_complete, size_object]
    simp only [stateSize, Expect.size, Token.size, membersSize, List.map_nil, List.sum_nil]
    omega
  · cases h
    simp only [stateSize, Expect.size, Token.size, membersSize, List.map_nil, List.sum_nil]
    omega
  · cases h
    simp only [stateSize, Expect.size, Token.size]
    omega
  · cases h
    simp only [stateSize, Expect.size, Open.size, Token.size, List.map_cons, List.sum_cons]
    omega
  · cases h
    simp only [stateSize, Expect.size, Token.size]
    omega
  · cases h
    rw [stateSize_complete, size_object, membersSize_reverse]
    simp only [stateSize, Expect.size, Token.size]
    omega
  · cases h

theorem stateSize_readTokens {state final : Expect × List Open} {ts : List Token}
    (h : readTokens state ts = some final) : stateSize final ≤ stateSize state + tokensSize ts := by
  induction ts generalizing state with
  | nil =>
    cases h
    exact Nat.le_refl _
  | cons t ts ih =>
    obtain ⟨next, hnext, hrest⟩ := Option.bind_eq_some_iff.mp h
    have hfirst := stateSize_readToken hnext
    have hlater := ih hrest
    rw [tokensSize_cons]
    omega

theorem size_ofTokens? {ts : List Token} {j : Json} (h : ofTokens? ts = some j) :
    j.size ≤ tokensSize ts := by
  unfold ofTokens? at h
  split at h
  · rename_i value stack hread
    cases h
    have hle := stateSize_readTokens hread
    simp only [stateSize, Expect.size, List.map_nil, List.sum_nil] at hle
    omega
  · cases h

/-- The tree of units is printed in no more bytes than they are. -/
theorem size_ofUnits? {units : List (Option Char)} {j : Json} (h : ofUnits? units = some j) :
    j.size ≤ unitsSize units := by
  obtain ⟨ts, htokens, htree⟩ := Option.bind_eq_some_iff.mp h
  have hle := size_tokensFrom htokens
  rw [Place.size, Nat.zero_add] at hle
  exact (size_ofTokens? htree).trans hle

/-- **A tree is printed in no more bytes than its text has.** -/
theorem utf8ByteSize_print_le {text : String} {j : Json} (h : ofString? text = some j) :
    j.print.utf8ByteSize ≤ text.utf8ByteSize := by
  rw [utf8ByteSize_print, ← unitsSize_text]
  exact size_ofUnits? h

/-! ### The texts of strings -/

/-- The characters of a string are printed in no more bytes than its glyphs. -/
theorem size_chars? {glyphs : List Glyph} {cs : List Char} (h : Glyph.chars? glyphs = some cs) :
    ((cs.map Glyph.char).map Glyph.size).sum ≤ (glyphs.map Glyph.size).sum := by
  fun_induction Glyph.chars? glyphs generalizing cs with
  | case1 =>
    cases h
    exact Nat.le_refl _
  | case2 c r ih =>
    obtain ⟨rest, hrest, rfl⟩ := Option.map_eq_some_iff.mp h
    have hlater := ih hrest
    simp only [List.map_cons, List.sum_cons]
    omega
  | case3 hi lo r hpair ih =>
    -- a pair is printed as the one character that it stands for
    obtain ⟨rest, hrest, rfl⟩ := Option.map_eq_some_iff.mp h
    have hlater := ih hrest
    have hchar := size_char_le (Glyph.ofPair hi lo)
    have hhi : (Glyph.surrogate hi).size = 6 := utf8Len_escapeUnit hi
    simp only [List.map_cons, List.sum_cons, hhi]
    omega
  | case4 | case5 => cases h

theorem size_char_pos (c : Char) : 1 ≤ (Glyph.char c).size := by
  have hpos := c.utf8Size_pos
  rw [size_char]
  split
  · decide
  · split <;> omega

theorem size_ofText (s : String) : (ofText s).size = stringSize (Glyph.ofText s) := size_string _

/-- A text is printed in no more bytes than the string that it was read from. -/
theorem size_text? {j : Json} {s : String} (h : j.text? = some s) : (ofText s).size ≤ j.size := by
  cases j with
  | string glyphs =>
    obtain ⟨cs, hcs, rfl⟩ := Option.map_eq_some_iff.mp h
    have hle := size_chars? hcs
    rw [size_ofText, size_string, stringSize, stringSize, Glyph.ofText, String.toList_ofList]
    omega
  | _ => cases h

theorem length_le_size_ofText (s : String) : s.toList.length + 2 ≤ (ofText s).size := by
  have hle := List.length_le_sum_of_one_le ((Glyph.ofText s).map Glyph.size) (by
    intro n hn
    obtain ⟨g, hg, rfl⟩ := List.mem_map.mp hn
    obtain ⟨c, -, rfl⟩ := List.mem_map.mp hg
    exact size_char_pos c)
  rw [List.length_map, Glyph.ofText, List.length_map] at hle
  rw [size_ofText, stringSize]
  exact Nat.add_le_add_right hle 2

/-! ### The values of a record -/

theorem mem_of_only? {name : String} {ms : List (String × Json)} {v : Json}
    (h : only? name ms = some v) : (name, v) ∈ ms := by
  unfold only? at h
  split at h
  · rename_i m hm
    cases h
    have hmem : m ∈ ms.filter (·.1 == name) := by
      rw [hm]
      exact List.mem_singleton_self m
    obtain ⟨hmem, hname⟩ := List.mem_filter.mp hmem
    rw [← beq_iff_eq.mp hname]
    exact hmem
  · cases h

/-- The values of names are those of members. -/
theorem exists_members {names : List String} {ms : List (String × Json)} {vs : List Json}
    (h : names.mapM (only? · ms) = some vs) :
    ∃ chosen : List (String × Json),
      chosen.map (·.1) = names ∧ chosen.map (·.2) = vs ∧ chosen ⊆ ms := by
  induction names generalizing vs with
  | nil =>
    cases h
    exact ⟨[], rfl, rfl, List.nil_subset _⟩
  | cons n ns ih =>
    rw [List.mapM_cons] at h
    obtain ⟨v, hv, h⟩ := Option.bind_eq_some_iff.mp h
    obtain ⟨rest, hrest, h⟩ := Option.bind_eq_some_iff.mp h
    cases h
    obtain ⟨more, hnames, hvalues, hsub⟩ := ih hrest
    refine ⟨(n, v) :: more, ?_, ?_, List.cons_subset.mpr ⟨mem_of_only? hv, hsub⟩⟩
    · rw [List.map_cons, hnames]
    · rw [List.map_cons, hvalues]

theorem sum_map_le_of_subperm {α : Type} (f : α → Nat) {xs ys : List α} (h : xs.Subperm ys) :
    (xs.map f).sum ≤ (ys.map f).sum := by
  obtain ⟨zs, hperm, hsub⟩ := h
  rw [← (hperm.map f).sum_nat]
  exact (hsub.map f).sum_le_sum fun _ _ => Nat.zero_le _

/-- The members of a record, with the texts of their names. -/
theorem forall₂_named? {members : List (List Glyph × Json)} {ms : List (String × Json)}
    (h : named? members = some ms) :
    List.Forall₂ (fun m k => Glyph.text? m.1 = some k.1 ∧ k.2 = m.2) members ms := by
  induction members generalizing ms with
  | nil =>
    cases h
    exact .nil
  | cons m rest ih =>
    rw [named?, List.mapM_cons] at h
    obtain ⟨first, hfirst, h⟩ := Option.bind_eq_some_iff.mp h
    obtain ⟨more, hmore, h⟩ := Option.bind_eq_some_iff.mp h
    cases h
    obtain ⟨name, hname, rfl⟩ := Option.map_eq_some_iff.mp hfirst
    exact .cons ⟨hname, rfl⟩ (ih hmore)

theorem itemsSize_named? {members : List (List Glyph × Json)} {ms : List (String × Json)}
    (h : named? members = some ms) : itemsSize (ms.map (·.2)) ≤ membersSize members := by
  have hnamed := forall₂_named? h
  clear h
  rw [itemsSize, membersSize, List.map_map]
  induction hnamed with
  | nil => exact Nat.le_refl _
  | cons hm _ ih =>
    simp only [List.map_cons, List.sum_cons, Function.comp_apply, memberSize, hm.2]
    omega

/-- The values of a record take no more bytes than its members. -/
theorem itemsSize_only? {names : List String} (hn : names.Nodup)
    {members : List (List Glyph × Json)} {ms : List (String × Json)} (hms : named? members = some ms)
    {vs : List Json} (h : names.mapM (only? · ms) = some vs) :
    itemsSize vs ≤ membersSize members := by
  obtain ⟨chosen, rfl, rfl, hsub⟩ := exists_members h
  have hsubperm := List.subperm_of_subset (hn.of_map _) hsub
  refine Nat.le_trans ?_ (itemsSize_named? hms)
  rw [itemsSize, itemsSize, List.map_map, List.map_map]
  exact sum_map_le_of_subperm _ hsubperm

/-- **The tag and the values of a tagged record share the bytes of its tree.** -/
theorem size_tagged? {key tag : String} {names : List String} (hn : names.Nodup) {j fields : Json}
    {vs : List Json} (htag : j.tagged? key = some (tag, fields))
    (hvalues : fields.values? names = some vs) :
    (ofText tag).size + itemsSize vs + 2 ≤ j.size := by
  cases j with
  | array items =>
    cases items with
    | nil => cases htag
    | cons t rest =>
      obtain ⟨text, htext, heq⟩ := Option.map_eq_some_iff.mp htag
      cases heq
      have ht := size_text? htext
      rw [values?] at hvalues
      split at hvalues
      · cases hvalues
        simp only [size_array, itemsSize, List.map_cons, List.sum_cons]
        omega
      · cases hvalues
  | object members =>
    obtain ⟨ms, hms, htag⟩ := Option.bind_eq_some_iff.mp htag
    obtain ⟨text, htext, htag⟩ := Option.bind_eq_some_iff.mp htag
    cases htag
    obtain ⟨t, honly, htext⟩ := Option.bind_eq_some_iff.mp htext
    obtain ⟨ms', hms', hchosen⟩ := Option.bind_eq_some_iff.mp hvalues
    have hrest := itemsSize_only? hn hms' hchosen
    -- the member with the tag is not among those that the values are taken from
    obtain ⟨m, hm, hname, rfl⟩ : ∃ m ∈ members, Glyph.text? m.1 = some key ∧ t = m.2 := by
      obtain ⟨i, hi, hget⟩ := List.getElem_of_mem (mem_of_only? honly)
      have hnamed := List.forall₂_iff_get.mp (forall₂_named? hms)
      have hi' : i < members.length := hnamed.1 ▸ hi
      have hpair := hnamed.2 i hi' hi
      simp only [List.get_eq_getElem, hget] at hpair
      exact ⟨members[i], List.getElem_mem hi', hpair⟩
    have hsize : memberSize m ≤
        membersSize (members.filter fun m => !(Glyph.text? m.1 != some key)) := by
      refine List.single_le_sum (fun _ _ => Nat.zero_le _) _ (List.mem_map_of_mem ?_)
      exact List.mem_filter.mpr ⟨hm, by simp [hname]⟩
    have hsplit : membersSize (members.filter fun m => Glyph.text? m.1 != some key) +
        membersSize (members.filter fun m => !(Glyph.text? m.1 != some key)) =
          membersSize members := by
      have hperm := List.filter_append_perm (fun m => Glyph.text? m.1 != some key) members
      rw [membersSize, membersSize, ← List.sum_append, ← List.map_append, membersSize]
      exact (hperm.map _).sum_nat
    have ht := size_text? htext
    rw [memberSize] at hsize
    rw [size_object]
    omega
  | _ => cases htag

end Json

end Foreman
