/-
Texts of the grammar are read as what they say.

`Written cs j` says what a text means without reading it: it has one case for each form of a
value, and blanks may stand around any of them.  Numbers are put together from their parts,
and a string is spelled character by character, each as itself, with a letter or with its
number.  What holds of every text of the grammar can then be proved by induction over
what it says.

Reading takes two steps, and so does the proof.  `Writes cs ts` says that the characters
`cs` are the tokens `ts` wherever they stand, as long as nothing follows that a number could
go on with; it holds of every text of the grammar.  The tokens of a tree then complete it,
whatever is open around it.
-/
import Foreman.Json.Reader

namespace Foreman.Json

open Text

/-! ### Numbers -/

/-- One digit or more. -/
def Digits (s : List Char) : Prop := s ≠ [] ∧ ∀ c ∈ s, c.isDigit = true

/-- The whole part of a number; a zero leads no other digits. -/
def Whole (s : List Char) : Prop := Digits s ∧ (s.head? = some '0' → s = ['0'])

/-- A point and digits, or nothing. -/
def Fraction (s : List Char) : Prop := s = [] ∨ ∃ digits, Digits digits ∧ s = '.' :: digits

/-- The letter of an exponent, a sign or none, and digits, or nothing at all. -/
def Exponent (s : List Char) : Prop :=
  s = [] ∨ ∃ e sign digits, (e = 'e' ∨ e = 'E') ∧ (sign = [] ∨ sign = ['+'] ∨ sign = ['-']) ∧
    Digits digits ∧ s = e :: (sign ++ digits)

/-- A number: a minus sign or none, a whole part, a fraction and an exponent. -/
def Numeral (s : List Char) : Prop :=
  ∃ sign whole fraction exponent, (sign = [] ∨ sign = ['-']) ∧ Whole whole ∧ Fraction fraction ∧
    Exponent exponent ∧ s = sign ++ (whole ++ (fraction ++ exponent))

theorem Digits.exists_cons {s : List Char} (h : Digits s) :
    ∃ d ds, s = d :: ds ∧ d.isDigit = true ∧ ∀ c ∈ ds, c.isDigit = true := by
  cases s with
  | nil => exact absurd rfl h.1
  | cons d ds => exact ⟨d, ds, rfl, List.forall_mem_cons.mp h.2⟩

theorem afterDigits_append {ds : List Char} (h : ∀ c ∈ ds, c.isDigit = true) (r : List Char) :
    afterDigits (ds ++ r) = afterDigits r := List.dropWhile_append_of_pos h

theorem afterDigits_of_digits {ds : List Char} (h : ∀ c ∈ ds, c.isDigit = true) :
    afterDigits ds = [] := by
  rw [← List.append_nil ds, afterDigits_append h]
  rfl

theorem Exponent.afterDigits_eq {s : List Char} (h : Exponent s) : afterDigits s = s := by
  obtain rfl | ⟨e, sign, digits, he, -, -, rfl⟩ := h
  · rfl
  · rcases he with rfl | rfl <;> rfl

theorem Exponent.isExponent {s : List Char} (h : Exponent s) : isExponent s = true := by
  obtain rfl | ⟨e, sign, digits, he, hsign, hdigits, rfl⟩ := h
  · rfl
  · obtain ⟨d, ds, rfl, hd, hds⟩ := hdigits.exists_cons
    have hletter : (e == 'e' || e == 'E') = true := by simpa using he
    have hplus : d ≠ '+' := by
      rintro rfl
      exact absurd hd (by decide)
    have hminus : d ≠ '-' := by
      rintro rfl
      exact absurd hd (by decide)
    rcases hsign with rfl | rfl | rfl
    · cases ds with
      | nil => simp [Json.isExponent, hletter, hd]
      | cons d' ds => simp [Json.isExponent, hletter, hd, hplus, hminus, afterDigits_of_digits hds]
    · simp [Json.isExponent, hletter, hd, afterDigits_of_digits hds]
    · simp [Json.isExponent, hletter, hd, afterDigits_of_digits hds]

theorem isFraction_of_parts {fraction exponent : List Char} (hf : Fraction fraction)
    (he : Exponent exponent) : isFraction (fraction ++ exponent) = true := by
  obtain rfl | ⟨digits, hdigits, rfl⟩ := hf
  · rw [List.nil_append, isFraction]
    · exact he.isExponent
    · intro d r hr
      obtain rfl | ⟨e, sign, ds, hletter, -, -, rfl⟩ := he
      · simp at hr
      · obtain ⟨rfl, -⟩ := List.cons.inj hr
        simp at hletter
  · obtain ⟨d, ds, rfl, hd, hds⟩ := hdigits.exists_cons
    rw [List.cons_append, List.cons_append, isFraction, afterDigits_append hds, he.afterDigits_eq,
      hd, he.isExponent]
    rfl

theorem isMagnitude_of_parts {whole fraction exponent : List Char} (hw : Whole whole)
    (hf : Fraction fraction) (he : Exponent exponent) :
    isMagnitude (whole ++ (fraction ++ exponent)) = true := by
  have hrest := isFraction_of_parts hf he
  have hafter : afterDigits (fraction ++ exponent) = fraction ++ exponent := by
    obtain rfl | ⟨digits, -, rfl⟩ := hf
    · exact he.afterDigits_eq
    · rfl
  obtain ⟨hdigits, hzero⟩ := hw
  obtain ⟨d, ds, rfl, hd, hds⟩ := hdigits.exists_cons
  by_cases hlead : d = '0'
  · subst hlead
    obtain ⟨-, rfl⟩ := List.cons.inj (hzero rfl)
    exact hrest
  · rw [List.cons_append, isMagnitude]
    · rw [afterDigits_append hds, hafter, hd, hrest]
      rfl
    · exact hlead

/-- **The parts of a number make a number.** -/
theorem isNumber_of_numeral {s : List Char} (h : Numeral s) : isNumber s = true := by
  obtain ⟨sign, whole, fraction, exponent, hsign, hw, hf, he, rfl⟩ := h
  have hmagnitude := isMagnitude_of_parts hw hf he
  rcases hsign with rfl | rfl
  · obtain ⟨d, ds, hwhole, hd, -⟩ := hw.1.exists_cons
    rw [List.nil_append, isNumber]
    · exact hmagnitude
    · intro r hr
      rw [hwhole] at hr
      obtain ⟨rfl, -⟩ := List.cons.inj hr
      exact absurd hd (by decide)
  · exact hmagnitude

theorem isNumberChar_of_isDigit {c : Char} (h : c.isDigit = true) : isNumberChar c = true := by
  simp [isNumberChar, h]

theorem Digits.numberChars {s : List Char} (h : Digits s) : ∀ c ∈ s, isNumberChar c = true :=
  fun c hc => isNumberChar_of_isDigit (h.2 c hc)

/-- A number is made of number characters. -/
theorem Numeral.numberChars {s : List Char} (h : Numeral s) : ∀ c ∈ s, isNumberChar c = true := by
  obtain ⟨sign, whole, fraction, exponent, hsign, hw, hf, he, rfl⟩ := h
  have hminus : ∀ c ∈ sign, isNumberChar c = true := by
    rcases hsign with rfl | rfl <;> simp [isNumberChar]
  have hfraction : ∀ c ∈ fraction, isNumberChar c = true := by
    obtain rfl | ⟨digits, hdigits, rfl⟩ := hf
    · simp
    · exact List.forall_mem_cons.mpr ⟨by decide, hdigits.numberChars⟩
  have hexponent : ∀ c ∈ exponent, isNumberChar c = true := by
    obtain rfl | ⟨e, sign, digits, hletter, hsign, hdigits, rfl⟩ := he
    · simp
    · have hletter' : isNumberChar e = true := by rcases hletter with rfl | rfl <;> decide
      have hsign' : ∀ c ∈ sign, isNumberChar c = true := by
        rcases hsign with rfl | rfl | rfl <;> simp [isNumberChar]
      exact List.forall_mem_cons.mpr
        ⟨hletter', List.forall_mem_append.mpr ⟨hsign', hdigits.numberChars⟩⟩
  exact List.forall_mem_append.mpr ⟨hminus, List.forall_mem_append.mpr
    ⟨hw.1.numberChars, List.forall_mem_append.mpr ⟨hfraction, hexponent⟩⟩⟩

/-! ### Strings -/

/-- The characters between the quotes of a string, and what they spell. -/
inductive Spelled : List Char → List Glyph → Prop where
  | nil : Spelled [] []
  /-- A character that stands for itself. -/
  | plain {c : Char} {cs : List Char} {glyphs : List Glyph} (hquote : c ≠ '"') (hslash : c ≠ '\\')
      (hcontrol : 0x20 ≤ c.toNat) (h : Spelled cs glyphs) : Spelled (c :: cs) (.char c :: glyphs)
  /-- A letter behind a backslash. -/
  | letter {l c : Char} {cs : List Char} {glyphs : List Glyph} (hletter : unescape? l = some c)
      (h : Spelled cs glyphs) : Spelled ('\\' :: l :: cs) (.char c :: glyphs)
  /-- Four hexadecimal digits: a character, or half of one that is written as a pair. -/
  | code {d₁ d₂ d₃ d₄ : Char} {n : Nat} {cs : List Char} {glyphs : List Glyph}
      (hcode : Hex.read [d₁, d₂, d₃, d₄] = some n) (h : Spelled cs glyphs) :
      Spelled ('\\' :: 'u' :: d₁ :: d₂ :: d₃ :: d₄ :: cs) (glyphOfCode n :: glyphs)

/-! ### Values -/

/-- Blanks, or nothing. -/
def Blanks (ws : List Char) : Prop := ∀ c ∈ ws, isBlank c = true

/-- A member of an object, and the texts of its name and its value. -/
structure MemberText where
  nameText : List Char
  name : List Glyph
  valueText : List Char
  value : Json

/-- The text of a member. -/
def MemberText.chars (m : MemberText) : List Char := m.nameText ++ ':' :: m.valueText

/-- The member without its text. -/
def MemberText.member (m : MemberText) : List Glyph × Json := (m.name, m.value)

/-- The characters are a text of the grammar, and say the value. -/
inductive Written : List Char → Json → Prop where
  | null : Written "null".toList .null
  | true : Written "true".toList (.bool true)
  | false : Written "false".toList (.bool false)
  | number {s : List Char} (h : Numeral s) : Written s (.number s)
  | string {cs : List Char} {glyphs : List Glyph} (h : Spelled cs glyphs) :
      Written ('"' :: cs ++ ['"']) (.string glyphs)
  | emptyArray {ws : List Char} (h : Blanks ws) : Written ('[' :: ws ++ [']']) (.array [])
  /-- Items with commas between them. -/
  | array {items : List (List Char × Json)} (hne : items ≠ []) (h : ∀ i ∈ items, Written i.1 i.2) :
      Written ('[' :: [','].intercalate (items.map (·.1)) ++ [']']) (.array (items.map (·.2)))
  | emptyObject {ws : List Char} (h : Blanks ws) : Written ('{' :: ws ++ ['}']) (.object [])
  /-- Members with commas between them. -/
  | object {members : List MemberText} (hne : members ≠ [])
      (names : ∀ m ∈ members, Written m.nameText (.string m.name))
      (values : ∀ m ∈ members, Written m.valueText m.value) :
      Written ('{' :: [','].intercalate (members.map MemberText.chars) ++ ['}'])
        (.object (members.map MemberText.member))
  /-- Blanks may stand around a value. -/
  | padded {before cs after : List Char} {j : Json} (hbefore : Blanks before) (h : Written cs j)
      (hafter : Blanks after) : Written (before ++ cs ++ after) j

/-! ### What characters write -/

/-- A number that ends here has ended: what follows is no part of it. -/
def Boundary (rest : List (Option Char)) : Prop :=
  ∀ c r, rest = some c :: r → isNumberChar c = false

/-- The characters are these tokens, wherever they stand. -/
def Writes (cs : List Char) (ts : List Token) : Prop :=
  ∀ rest, Boundary rest →
    tokensFrom .between (cs.map some ++ rest) = (tokensFrom .between rest).map (ts ++ ·)

theorem boundary_cons {c : Char} (h : isNumberChar c = false) (r : List (Option Char)) :
    Boundary (some c :: r) := by
  intro d r' heq
  obtain ⟨hc, -⟩ := List.cons.inj heq
  rw [← Option.some.inj hc]
  exact h

theorem Writes.append {c : Char} {cs ds : List Char} {ts us : List Token} (h : Writes cs ts)
    (hc : isNumberChar c = false) (hds : Writes (c :: ds) us) :
    Writes (cs ++ c :: ds) (ts ++ us) := by
  intro rest hrest
  have hfirst := h ((c :: ds).map some ++ rest) (boundary_cons hc _)
  rw [List.map_append, List.append_assoc, hfirst, hds rest hrest, Option.map_map]
  congr 1
  funext vs
  simp

/-- A character that is a token of its own. -/
theorem Writes.mark {c : Char} {t : Token} {cs : List Char} {ts : List Token}
    (hc : begin? c = some (some t, .between)) (h : Writes cs ts) : Writes (c :: cs) (t :: ts) := by
  intro rest hrest
  rw [List.map_cons, List.cons_append, tokensFrom, hc]
  dsimp only
  rw [h rest hrest, Option.map_map]
  rfl

theorem writes_nil : Writes [] [] := by
  intro rest _
  simp

/-- A number begins with any of its characters. -/
theorem begin?_of_isNumberChar {c : Char} (h : isNumberChar c = true) :
    begin? c = some (none, .number [c]) := by
  have hne : ∀ d, isNumberChar d = false → c ≠ d := by
    rintro d hd rfl
    rw [h] at hd
    simp at hd
  have hblank : isBlank c = false := by
    have h₁ := hne ' ' (by decide)
    have h₂ := hne '\t' (by decide)
    have h₃ := hne '\n' (by decide)
    have h₄ := hne '\r' (by decide)
    simp [isBlank, h₁, h₂, h₃, h₄]
  simp [begin?, hblank, h, hne '[' (by decide), hne ']' (by decide), hne '{' (by decide),
    hne '}' (by decide), hne ',' (by decide), hne ':' (by decide), hne '"' (by decide),
    hne 't' (by decide), hne 'f' (by decide), hne 'n' (by decide)]

theorem tokensFrom_number {s : List Char} (h : ∀ c ∈ s, isNumberChar c = true) (acc : List Char)
    (rest : List (Option Char)) :
    tokensFrom (.number acc) (s.map some ++ rest) =
      tokensFrom (.number (s.reverse ++ acc)) rest := by
  induction s generalizing acc with
  | nil => rfl
  | cons c s ih =>
      rw [List.forall_mem_cons] at h
      rw [List.map_cons, List.cons_append, tokensFrom, if_pos h.1, ih h.2]
      simp

theorem writes_number {lexeme : List Char} (h : Numeral lexeme) :
    Writes lexeme [.scalar (.number lexeme)] := by
  intro rest hrest
  have hnumber := isNumber_of_numeral h
  have hchars := h.numberChars
  cases lexeme with
  | nil => simp [isNumber, isMagnitude] at hnumber
  | cons c s =>
      rw [List.forall_mem_cons] at hchars
      have htoken : numberToken? (s.reverse ++ [c]) = some (.scalar (.number (c :: s))) := by
        simp [numberToken?, hnumber]
      rw [List.map_cons, List.cons_append, tokensFrom, begin?_of_isNumberChar hchars.1]
      dsimp only
      rw [tokensFrom_number hchars.2]
      cases rest with
      | nil => simp [tokensFrom, htoken]
      | cons u r =>
          cases u with
          | none => simp [tokensFrom]
          | some d =>
              -- the number ends before `d`, which begins whatever comes next
              have hd : isNumberChar d = false := hrest d r rfl
              rw [tokensFrom, tokensFrom, if_neg (by simp [hd]), htoken]
              cases hbegin : begin? d with
              | none => rfl
              | some p =>
                  obtain ⟨t, place⟩ := p
                  cases t with
                  | none => rfl
                  | some t => simp [Function.comp_def]

theorem tokensFrom_code_of_read {d₁ d₂ d₃ d₄ : Char} {n : Nat}
    (h : Hex.read [d₁, d₂, d₃, d₄] = some n) (acc : List Glyph) (rest : List (Option Char)) :
    tokensFrom (.code acc 4 0) (some d₁ :: some d₂ :: some d₃ :: some d₄ :: rest) =
      tokensFrom (.text (glyphOfCode n :: acc)) rest := by
  simp only [Hex.read, Hex.readFrom, Option.bind_eq_some_iff, Option.some.injEq] at h
  obtain ⟨a, ha, b, hb, c, hc, d, hd, rfl⟩ := h
  simp [tokensFrom, ha, hb, hc, hd]

/-- What a string spells is read, whatever has been read of the string before. -/
theorem tokensFrom_spelled {cs : List Char} {glyphs : List Glyph} (h : Spelled cs glyphs)
    (acc : List Glyph) (rest : List (Option Char)) :
    tokensFrom (.text acc) (cs.map some ++ rest) =
      tokensFrom (.text (glyphs.reverse ++ acc)) rest := by
  induction h generalizing acc with
  | nil => rfl
  | plain hquote hslash hcontrol _ ih =>
    rw [List.map_cons, List.cons_append, tokensFrom, if_neg hquote, if_neg hslash,
      if_neg (Nat.not_lt.mpr hcontrol), ih]
    simp
  | @letter l c _ _ hletter _ ih =>
    have hu : l ≠ 'u' := by
      rintro rfl
      cases hletter
    rw [List.map_cons, List.map_cons, List.cons_append, List.cons_append, tokensFrom,
      if_neg (by decide), if_pos rfl, tokensFrom, if_neg hu, hletter]
    dsimp only
    rw [ih]
    simp
  | code hcode _ ih =>
    simp only [List.map_cons, List.cons_append]
    rw [tokensFrom, if_neg (by decide), if_pos rfl, tokensFrom, if_pos rfl,
      tokensFrom_code_of_read hcode, ih]
    simp

theorem writes_spelled {cs : List Char} {glyphs : List Glyph} (h : Spelled cs glyphs) :
    Writes ('"' :: cs ++ ['"']) [.text glyphs] := by
  intro rest _
  rw [List.cons_append, List.map_cons, List.map_append, List.cons_append, List.append_assoc,
    tokensFrom]
  show tokensFrom (.text []) _ = _
  rw [tokensFrom_spelled h, List.append_nil, List.map_cons, List.map_nil, List.cons_append,
    List.nil_append, tokensFrom, if_pos rfl, List.reverse_reverse]
  rfl

/-! ### The tokens of a tree -/

mutual

/-- The tokens of a tree. -/
def tokens : Json → List Token
  | .string glyphs => [.text glyphs]
  | .array [] => [.openArray, .closeArray]
  | .array (x :: xs) => .openArray :: tokens x ++ itemTokens xs
  | .object [] => [.openObject, .closeObject]
  | .object ((name, x) :: ms) =>
    .openObject :: .text name :: .colon :: tokens x ++ memberTokens ms
  | scalar => [.scalar scalar]

/-- The tokens after the first item of an array. -/
def itemTokens : List Json → List Token
  | [] => [.closeArray]
  | x :: xs => .comma :: tokens x ++ itemTokens xs

/-- The tokens after the first member of an object. -/
def memberTokens : List (List Glyph × Json) → List Token
  | [] => [.closeObject]
  | (name, x) :: ms => .comma :: .text name :: .colon :: tokens x ++ memberTokens ms

end

/-! ### Blanks and marks -/

theorem not_isNumberChar_of_isBlank {c : Char} (h : isBlank c = true) : isNumberChar c = false := by
  simp only [isBlank, Bool.or_eq_true, beq_iff_eq] at h
  rcases h with ((rfl | rfl) | rfl) | rfl <;> decide

/-- Blanks are no tokens. -/
theorem tokensFrom_blanks {ws : List Char} (h : Blanks ws) (rest : List (Option Char)) :
    tokensFrom .between (ws.map some ++ rest) = tokensFrom .between rest := by
  induction ws with
  | nil => rfl
  | cons c ws ih =>
    obtain ⟨hc, hws⟩ := List.forall_mem_cons.mp h
    have hbegin : begin? c = some (none, .between) := if_pos hc
    rw [List.map_cons, List.cons_append, tokensFrom, hbegin]
    exact ih hws

theorem writes_blanks {ws : List Char} (h : Blanks ws) {cs : List Char} {ts : List Token}
    (hcs : Writes cs ts) : Writes (ws ++ cs) ts := by
  intro rest hrest
  rw [List.map_append, List.append_assoc, tokensFrom_blanks h, hcs rest hrest]

theorem Writes.padded {before cs after : List Char} {ts : List Token} (hbefore : Blanks before)
    (h : Writes cs ts) (hafter : Blanks after) : Writes (before ++ cs ++ after) ts := by
  rw [List.append_assoc]
  refine writes_blanks hbefore ?_
  intro rest hrest
  have hboundary : Boundary (after.map some ++ rest) := by
    cases after with
    | nil => exact hrest
    | cons c ws => exact boundary_cons (not_isNumberChar_of_isBlank (hafter c List.mem_cons_self)) _
  rw [List.map_append, List.append_assoc, h _ hboundary, tokensFrom_blanks hafter]

/-- What stands behind the first of some parts: the others, each after a comma, and the closing
bracket. -/
def tailText (close : Char) (parts : List (List Char)) : List Char :=
  parts.flatMap (',' :: ·) ++ [close]

theorem intercalate_comma (close : Char) (part : List Char) (parts : List (List Char)) :
    [','].intercalate (part :: parts) ++ [close] = part ++ tailText close parts := by
  induction parts generalizing part with
  | nil => simp [tailText, List.intercalate]
  | cons next parts ih =>
    rw [List.intercalate_cons_cons, List.append_assoc, List.append_assoc, ih]
    simp [tailText]

/-- A value ends where a comma or a closing bracket follows. -/
theorem Writes.append_tail {close : Char} (hclose : isNumberChar close = false) {cs : List Char}
    {ts us : List Token} (h : Writes cs ts) {parts : List (List Char)}
    (htail : Writes (tailText close parts) us) : Writes (cs ++ tailText close parts) (ts ++ us) := by
  cases parts with
  | nil => exact h.append hclose htail
  | cons part parts => exact h.append (by decide) htail

theorem writes_items {items : List (List Char × Json)}
    (h : ∀ i ∈ items, Writes i.1 (tokens i.2)) :
    Writes (tailText ']' (items.map (·.1))) (itemTokens (items.map (·.2))) := by
  induction items with
  | nil => exact .mark rfl writes_nil
  | cons i items ih =>
    rw [List.forall_mem_cons] at h
    have hitem : Writes (',' :: (i.1 ++ tailText ']' (items.map (·.1))))
        (.comma :: (tokens i.2 ++ itemTokens (items.map (·.2)))) :=
      .mark rfl (h.1.append_tail (by decide) (ih h.2))
    simpa [tailText, itemTokens] using hitem

theorem writes_memberText {m : MemberText} (hname : Writes m.nameText [.text m.name])
    (hvalue : Writes m.valueText (tokens m.value)) {parts : List (List Char)} {us : List Token}
    (htail : Writes (tailText '\x7d' parts) us) :
    Writes (m.chars ++ tailText '\x7d' parts)
      (.text m.name :: .colon :: (tokens m.value ++ us)) := by
  rw [MemberText.chars, List.append_assoc, List.cons_append]
  exact hname.append (by decide) (.mark rfl (hvalue.append_tail (by decide) htail))

theorem writes_members {members : List MemberText}
    (names : ∀ m ∈ members, Writes m.nameText [.text m.name])
    (values : ∀ m ∈ members, Writes m.valueText (tokens m.value)) :
    Writes (tailText '\x7d' (members.map MemberText.chars))
      (memberTokens (members.map MemberText.member)) := by
  induction members with
  | nil => exact .mark rfl writes_nil
  | cons m members ih =>
    rw [List.forall_mem_cons] at names values
    have hmember : Writes (',' :: (m.chars ++ tailText '\x7d' (members.map MemberText.chars)))
        (.comma :: .text m.name :: .colon ::
          (tokens m.value ++ memberTokens (members.map MemberText.member))) :=
      .mark rfl (writes_memberText names.1 values.1 (ih names.2 values.2))
    simpa [tailText, memberTokens, MemberText.member] using hmember

/-- **A text of the grammar is the tokens of what it says.** -/
theorem writes_of_written {cs : List Char} {j : Json} (h : Written cs j) :
    Writes cs (tokens j) := by
  induction h with
  | null =>
    intro rest _
    simp [tokens, tokensFrom, begin?, isBlank]
  | true =>
    intro rest _
    simp [tokens, tokensFrom, begin?, isBlank]
  | false =>
    intro rest _
    simp [tokens, tokensFrom, begin?, isBlank]
  | number h => simpa only [tokens] using writes_number h
  | string h => simpa only [tokens] using writes_spelled h
  | emptyArray h => exact .mark rfl (writes_blanks h (.mark rfl writes_nil))
  | @array items hne _ ih =>
    cases items with
    | nil => exact absurd rfl hne
    | cons i items =>
      rw [List.forall_mem_cons] at ih
      rw [List.cons_append, List.map_cons, intercalate_comma, List.map_cons, tokens]
      exact .mark rfl (ih.1.append_tail (by decide) (writes_items ih.2))
  | emptyObject h => exact .mark rfl (writes_blanks h (.mark rfl writes_nil))
  | @object members hne _ _ names values =>
    cases members with
    | nil => exact absurd rfl hne
    | cons m members =>
      rw [List.forall_mem_cons] at names values
      rw [List.cons_append, List.map_cons, intercalate_comma, List.map_cons, MemberText.member, tokens]
      exact .mark rfl (writes_memberText names.1 values.1 (writes_members names.2 values.2))
  | padded hbefore _ hafter ih => exact .padded hbefore ih hafter

/-! ### The tree of its tokens -/

/-- Behind an opening bracket a value is read as anywhere else. -/
theorem readTokens_firstItem (j : Json) (stack : List Open) (ts : List Token) :
    readTokens (.firstItem, stack) (tokens j ++ ts) =
      readTokens (.value, .array [] :: stack) (tokens j ++ ts) := by
  cases j with
  | array items => cases items <;> simp [tokens, readTokens, readToken]
  | object members => cases members <;> simp [tokens, readTokens, readToken]
  | _ => simp [tokens, readTokens, readToken]

/-- The tokens complete the tree, whatever is open around it and whatever follows. -/
def Completes (j : Json) : Prop :=
  ∀ stack ts, readTokens (.value, stack) (tokens j ++ ts) = readTokens (complete j stack) ts

theorem readTokens_itemTokens {items : List Json} (h : ∀ x ∈ items, Completes x)
    (before : List Json) (stack : List Open) (ts : List Token) :
    readTokens (.nextItem before, stack) (itemTokens items ++ ts) =
      readTokens (complete (.array (before.reverse ++ items)) stack) ts := by
  induction items generalizing before with
  | nil => simp [itemTokens, readTokens, readToken]
  | cons x xs ih =>
      rw [List.forall_mem_cons] at h
      simp only [itemTokens, List.cons_append, List.append_assoc, readTokens, readToken,
        Option.bind_some]
      rw [h.1, complete, ih h.2]
      simp

theorem readTokens_memberTokens {members : List (List Glyph × Json)}
    (h : ∀ m ∈ members, Completes m.2) (before : List (List Glyph × Json)) (stack : List Open)
    (ts : List Token) :
    readTokens (.nextName before, stack) (memberTokens members ++ ts) =
      readTokens (complete (.object (before.reverse ++ members)) stack) ts := by
  induction members generalizing before with
  | nil => simp [memberTokens, readTokens, readToken]
  | cons m ms ih =>
      rw [List.forall_mem_cons] at h
      simp only [memberTokens, List.cons_append, List.append_assoc, readTokens, readToken,
        Option.bind_some]
      rw [h.1, complete, ih h.2]
      simp

/-- **The tokens of what a text says complete it.** -/
theorem completes {cs : List Char} {j : Json} (h : Written cs j) : Completes j := by
  induction h with
  | null => intro stack ts; rfl
  | true => intro stack ts; rfl
  | false => intro stack ts; rfl
  | number _ => intro stack ts; simp [tokens, readTokens, readToken, readValue]
  | string _ => intro stack ts; simp [tokens, readTokens, readToken, readValue]
  | emptyArray _ => intro stack ts; simp [tokens, readTokens, readToken, readValue]
  | @array items hne _ ih =>
    intro stack ts
    cases items with
    | nil => exact absurd rfl hne
    | cons i items =>
      rw [List.forall_mem_cons] at ih
      simp only [List.map_cons, tokens, List.cons_append, List.append_assoc, readTokens, readToken,
        readValue, Option.bind_some]
      rw [readTokens_firstItem, ih.1, complete, readTokens_itemTokens (List.forall_mem_map.mpr ih.2)]
      rfl
  | emptyObject _ => intro stack ts; simp [tokens, readTokens, readToken, readValue]
  | @object members hne _ _ _ ih =>
    intro stack ts
    cases members with
    | nil => exact absurd rfl hne
    | cons m members =>
      rw [List.forall_mem_cons] at ih
      simp only [List.map_cons, MemberText.member, tokens, List.cons_append, List.append_assoc,
        readTokens, readToken, readValue, Option.bind_some]
      rw [ih.1, complete, readTokens_memberTokens (List.forall_mem_map.mpr ih.2)]
      rfl
  | padded _ _ _ ih => exact ih

/-- **A text of the grammar is read as what it says.** -/
theorem ofString?_of_written {text : String} {j : Json} (h : Written text.toList j) :
    ofString? text = some j := by
  have hwrites := writes_of_written h [] (by simp [Boundary])
  have htokens : tokens? (text.toList.map some) = some (tokens j) := by
    simpa [tokens?, tokensFrom] using hwrites
  have hread := completes h [] []
  rw [List.append_nil] at hread
  rw [ofString?, ofUnits?, htokens, Option.bind_some, ofTokens?, hread]
  rfl

end Foreman.Json
