/-
The texts of an address to listen on.

The reader takes blanks, a scheme and a slash off before it looks for an address, and it looks at
single characters to do so.  That cannot go wrong on a good text because a socket address is
written with digits, dots, colons, percent signs and brackets only.  So the first `://` of a good
text is the one behind its scheme, a slash at its end is not part of the address, and nothing in
the address looks like a path.
-/
import Foreman.Net.Bind
import Foreman.Proofs.Net.Printed
import Foreman.Proofs.Text.Trim

namespace Foreman.Net

open Text

/-! ### Cutting -/

theorem cutAt_eq_some {mark s a b : List Char} (h : cutAt mark s = some (a, b)) :
    s = a ++ mark ++ b := by
  induction s generalizing a with
  | nil =>
    obtain ⟨r, hdrop, heq⟩ := Option.map_eq_some_iff.mp h
    obtain ⟨rfl, rfl⟩ := Prod.mk.inj heq
    exact dropLead?_eq_some hdrop
  | cons c s ih =>
    rw [cutAt] at h
    split at h
    · rename_i r hdrop
      obtain ⟨rfl, rfl⟩ := Prod.mk.inj (Option.some.inj h)
      exact dropLead?_eq_some hdrop
    · obtain ⟨⟨a', b'⟩, hcut, heq⟩ := Option.map_eq_some_iff.mp h
      obtain ⟨rfl, rfl⟩ := Prod.mk.inj heq
      rw [ih hcut]
      rfl

/-- A text is cut where a mark stands behind characters that cannot begin it. -/
theorem cutAt_append {c : Char} {mark a : List Char} (b : List Char) (h : c ∉ a) :
    cutAt (c :: mark) (a ++ c :: mark ++ b) = some (a, b) := by
  induction a with
  | nil =>
    have hdrop : dropLead? (c :: mark) (c :: (mark ++ b)) = some b := dropLead?_append (c :: mark) b
    rw [List.nil_append, List.cons_append, cutAt, hdrop]
  | cons d a ih =>
    have hd : c ≠ d := fun e => h (by rw [e]; exact List.mem_cons_self)
    have ha : c ∉ a := fun m => h (List.mem_cons_of_mem d m)
    have hdrop : dropLead? (c :: mark) (d :: (a ++ c :: mark ++ b)) = none := if_neg hd
    rw [List.cons_append, List.cons_append, cutAt, hdrop]
    dsimp only
    rw [ih ha]
    rfl

/-- Blanks around a text are taken off, and nothing else. -/
theorem trimChars_surround {front core back : List Char} (hfront : ∀ c ∈ front, isBlank c = true)
    (hback : ∀ c ∈ back, isBlank c = true) (hcore : ∀ c ∈ core, isBlank c = false)
    (hne : core ≠ []) : trimChars (front ++ core ++ back) = core := by
  have hends {s : List Char} (hs : ∀ c ∈ s, isBlank c = false) (hs' : s ≠ []) (r : List Char) :
      Ends isBlank (s ++ r) := by
    cases s with
    | nil => exact absurd rfl hs'
    | cons c s => exact ends_cons.mpr (hs c List.mem_cons_self)
  have hleft : (front ++ core ++ back).dropWhile isBlank = core ++ back := by
    rw [List.append_assoc]
    exact (span_append hfront (hends hcore hne back)).2
  have hright : (core ++ back).reverse.dropWhile isBlank = core.reverse := by
    rw [List.reverse_append]
    refine (span_append (fun c hc => hback c (List.mem_reverse.mp hc)) ?_).2
    have hcore' : ∀ c ∈ core.reverse, isBlank c = false :=
      fun c hc => hcore c (List.mem_reverse.mp hc)
    have hne' : core.reverse ≠ [] := by
      rwa [ne_eq, List.reverse_eq_nil_iff]
    simpa using hends hcore' hne' []
  rw [trimChars, hleft, hright, List.reverse_reverse]

/-! ### The characters of an address -/

/-- A character with which socket addresses are written. -/
def isAddressChar (c : Char) : Bool := isHexDigit c || ['.', ':', '%', '[', ']'].contains c

theorem isAddressChar_of_isHexDigit {c : Char} (h : isHexDigit c = true) :
    isAddressChar c = true := by
  rw [isAddressChar, h, Bool.true_or]

theorem isAddressChar_of_decimalText {bound n : Nat} {t : List Char} (h : DecimalText bound t n) :
    ∀ c ∈ t, isAddressChar c = true := fun c hc =>
  isAddressChar_of_isHexDigit (isHexDigit_of_isDigit ((Decimal.value_of_read h.1).2.1 c hc))

theorem isAddressChar_ipv4 (ip : Ipv4) : ∀ c ∈ ip.print, isAddressChar c = true := by
  have hnumber (n : Nat) : ∀ c ∈ Decimal.print n, isAddressChar c = true :=
    fun c hc => isAddressChar_of_isHexDigit (isHexDigit_of_mem_print hc)
  have hprint := ip.print_append []
  rw [List.append_nil] at hprint
  rw [hprint]
  simp only [List.forall_mem_append, List.forall_mem_cons]
  exact ⟨hnumber _, by decide, hnumber _, by decide, hnumber _, by decide, hnumber _,
    List.forall_mem_nil _⟩

theorem GroupsText.isAddressChar {t : List Char} {gs : List UInt16} {v4 : Bool}
    (h : GroupsText t gs v4) : ∀ c ∈ t, isAddressChar c = true := by
  induction h with
  | last h => exact fun c hc => isAddressChar_of_isHexDigit (h.digits c hc)
  | embedded ip => exact isAddressChar_ipv4 ip
  | cons h hs ih =>
    simp only [List.forall_mem_append, List.forall_mem_cons]
    exact ⟨fun c hc => isAddressChar_of_isHexDigit (h.digits c hc), by decide, ih⟩

theorem SideText.isAddressChar {t : List Char} {gs : List UInt16} {v4 : Bool}
    (h : SideText t gs v4) : ∀ c ∈ t, isAddressChar c = true := by
  cases h with
  | nothing => exact List.forall_mem_nil _
  | groups h => exact h.isAddressChar

theorem Ipv6Text.isAddressChar {t : List Char} {ip : Ipv6} (h : Ipv6Text t ip) :
    ∀ c ∈ t, isAddressChar c = true := by
  cases h with
  | full h => exact h.isAddressChar
  | gap hfront hback hroom hgroups =>
    simp only [List.forall_mem_append, List.forall_mem_cons]
    exact ⟨hfront.isAddressChar, by decide, by decide, hback.isAddressChar⟩

theorem ScopeText.isAddressChar {t : List Char} {scope : UInt32} (h : ScopeText t scope) :
    ∀ c ∈ t, isAddressChar c = true := by
  cases h with
  | none => exact List.forall_mem_nil _
  | scope h => exact List.forall_mem_cons.mpr ⟨by decide, isAddressChar_of_decimalText h⟩

theorem SocketAddr.Spells.isAddressChar {t : List Char} {a : SocketAddr} (h : Spells t a) :
    ∀ c ∈ t, isAddressChar c = true := by
  cases h with
  | v4 hport =>
    simp only [List.forall_mem_append, List.forall_mem_cons]
    exact ⟨isAddressChar_ipv4 _, by decide, isAddressChar_of_decimalText hport⟩
  | v6 hip hscope hport =>
    simp only [List.forall_mem_append, List.forall_mem_cons]
    exact ⟨⟨⟨by decide, hip.isAddressChar⟩, hscope.isAddressChar⟩, by decide, by decide,
      isAddressChar_of_decimalText hport⟩

theorem SocketAddr.Spells.ne_nil {t : List Char} {a : SocketAddr} (h : Spells t a) : t ≠ [] := by
  cases h with
  | v4 hport => simp
  | v6 hip hscope hport => simp

/-! ### What stands around an address -/

/-- What may stand in front of an address: nothing, or the scheme `http` in any case. -/
def HttpLead (lead : List Char) : Prop :=
  lead = [] ∨ ∃ scheme, scheme.map Char.toLower = "http".toList ∧ lead = scheme ++ "://".toList

/-- What may stand behind an address: nothing, or one slash. -/
def SlashTail (tail : List Char) : Prop := tail = [] ∨ tail = ['/']

theorem SlashTail.isBlank {tail : List Char} (h : SlashTail tail) :
    ∀ c ∈ tail, isBlank c = false := by
  rcases h with rfl | rfl <;> exact isBlank_eq_false_of_all (by decide)

/-- The scheme has letters only, which are not blank in either case. -/
theorem isBlank_of_mem_scheme {scheme : List Char} (h : scheme.map Char.toLower = "http".toList)
    {c : Char} (hc : c ∈ scheme) : isBlank c = false := by
  have hmem : c.toLower ∈ "http".toList := by
    rw [← h]
    exact List.mem_map_of_mem hc
  rw [← isBlank_toLower]
  exact isBlank_eq_false_of_all (by decide) _ hmem

theorem colon_not_mem_scheme {scheme : List Char} (h : scheme.map Char.toLower = "http".toList) :
    ':' ∉ scheme := by
  intro hmem
  have hcolon : ':' ∈ "http".toList := by
    rw [← h]
    exact List.mem_map_of_mem hmem
  exact absurd hcolon (by decide)

theorem HttpLead.isBlank {lead : List Char} (h : HttpLead lead) :
    ∀ c ∈ lead, isBlank c = false := by
  rcases h with rfl | ⟨scheme, hscheme, rfl⟩
  · exact List.forall_mem_nil _
  · rw [List.forall_mem_append]
    exact ⟨fun c hc => isBlank_of_mem_scheme hscheme hc, isBlank_eq_false_of_all (by decide)⟩

theorem isBlank_of_isHexDigit {c : Char} (h : isHexDigit c = true) : isBlank c = false := by
  have hvisible {x y : Char} (hx : 33 ≤ x.toNat) (hy : y.toNat ≤ 126) (hc : x ≤ c ∧ c ≤ y) :
      isBlank c = false := by
    have hlow : x.toNat ≤ c.toNat := hc.1
    have hhigh : c.toNat ≤ y.toNat := hc.2
    exact isBlank_eq_false_of_visible (by omega) (by omega)
  rw [isHexDigit, Hex.digit?] at h
  split_ifs at h with hdigit hsmall hcapital
  · exact hvisible (by decide) (by decide) hdigit
  · exact hvisible (by decide) (by decide) hsmall
  · exact hvisible (by decide) (by decide) hcapital
  · cases h

theorem isBlank_of_isAddressChar {c : Char} (h : isAddressChar c = true) : isBlank c = false := by
  rw [isAddressChar, Bool.or_eq_true] at h
  rcases h with h | h
  · exact isBlank_of_isHexDigit h
  · exact isBlank_eq_false_of_all (by decide) c (List.contains_iff_mem.mp h)

theorem slash_not_mem {t : List Char} (h : ∀ c ∈ t, isAddressChar c = true) : '/' ∉ t := by
  intro hmem
  exact absurd (h _ hmem) (by decide)

/-! ### Taking it off -/

theorem afterScheme?_eq_some {s rest : List Char} (h : afterScheme? s = some rest) :
    ∃ lead, HttpLead lead ∧ s = lead ++ rest := by
  rw [afterScheme?] at h
  split at h
  · rename_i scheme r hcut
    split at h
    · rename_i hscheme
      obtain rfl := Option.some.inj h
      exact ⟨_, .inr ⟨scheme, hscheme, rfl⟩, cutAt_eq_some hcut⟩
    · cases h
  · obtain rfl := Option.some.inj h
    exact ⟨[], .inl rfl, rfl⟩

/-- An address with a slash behind it has one slash at most, so no scheme is found in it. -/
theorem cutAt_scheme_eq_none {text tail : List Char} (htext : '/' ∉ text)
    (htail : SlashTail tail) : cutAt "://".toList (text ++ tail) = none := by
  cases hcut : cutAt "://".toList (text ++ tail) with
  | none => rfl
  | some p =>
    have hcount := congrArg (List.count '/') (cutAt_eq_some hcut)
    have htext' : text.count '/' = 0 := List.count_eq_zero.mpr htext
    have htail' : tail.count '/' ≤ 1 := by
      rcases htail with rfl | rfl <;> decide
    have hmark : "://".toList.count '/' = 2 := by decide
    simp only [List.count_append] at hcount
    omega

theorem afterScheme?_append {lead text tail : List Char} (hlead : HttpLead lead)
    (htext : '/' ∉ text) (htail : SlashTail tail) :
    afterScheme? (lead ++ (text ++ tail)) = some (text ++ tail) := by
  rcases hlead with rfl | ⟨scheme, hscheme, rfl⟩
  · rw [List.nil_append, afterScheme?, cutAt_scheme_eq_none htext htail]
  · have hcolon := colon_not_mem_scheme hscheme
    have hcut : cutAt "://".toList (scheme ++ "://".toList ++ (text ++ tail)) =
        some (scheme, text ++ tail) := cutAt_append (text ++ tail) hcolon
    rw [afterScheme?, hcut]
    exact if_pos hscheme

theorem withoutSlash_append_tail (s : List Char) :
    ∃ tail, SlashTail tail ∧ s = withoutSlash s ++ tail := by
  rw [withoutSlash]
  split
  · rename_i hlast
    exact ⟨['/'], .inr rfl, (List.dropLast_append_getLast? '/' hlast).symm⟩
  · exact ⟨[], .inl rfl, (List.append_nil s).symm⟩

theorem withoutSlash_append {text tail : List Char} (htext : '/' ∉ text)
    (htail : SlashTail tail) : withoutSlash (text ++ tail) = text := by
  rcases htail with rfl | rfl
  · rw [List.append_nil, withoutSlash, if_neg]
    intro hlast
    exact htext (List.mem_of_getLast? hlast)
  · rw [withoutSlash, if_pos List.getLast?_concat, List.dropLast_concat]

theorem hasPath_eq_false {text : List Char} (h : ∀ c ∈ text, isAddressChar c = true) :
    hasPath text = false := by
  rw [hasPath, List.any_eq_false]
  intro c hc hpath
  rw [Bool.or_eq_true, Bool.or_eq_true, beq_iff_eq, beq_iff_eq, beq_iff_eq] at hpath
  rcases hpath with (rfl | rfl) | rfl <;> exact absurd (h _ hc) (by decide)

/-! ### Reading -/

/-- What is read as an address to listen on, step by step. -/
theorem parseBind_eq_ok {raw : String} {a : SocketAddr} :
    parseBind raw = .ok a ↔ trimChars raw.toList ≠ [] ∧
      ∃ rest, afterScheme? (trimChars raw.toList) = some rest ∧
        hasPath (withoutSlash rest) = false ∧
        SocketAddr.ofText? (withoutSlash rest) = some a ∧ a.port ≠ 0 := by
  unfold parseBind
  dsimp only
  constructor
  · intro h
    split at h
    · cases h
    rename_i hne
    split at h
    · cases h
    rename_i rest hrest
    split at h
    · cases h
    rename_i hpath
    split at h
    · cases h
    rename_i b hread
    split at h
    · cases h
    rename_i hport
    obtain rfl := Except.ok.inj h
    exact ⟨hne, rest, hrest, Bool.eq_false_iff.mpr hpath, hread, hport⟩
  · rintro ⟨hne, rest, hrest, hpath, hread, hport⟩
    simp only [hrest, hread, if_neg hne, if_neg (Bool.eq_false_iff.mp hpath), if_neg hport]

/-- An address is read from a text exactly if the text is one of the address's texts with nothing
but blanks, the scheme and a slash around it. -/
theorem parseBind_eq_ok_iff {raw : String} {a : SocketAddr} :
    parseBind raw = .ok a ↔ ∃ lead text tail, trimChars raw.toList = lead ++ text ++ tail ∧
      HttpLead lead ∧ SlashTail tail ∧ SocketAddr.Spells text a ∧ a.port ≠ 0 := by
  rw [parseBind_eq_ok]
  constructor
  · rintro ⟨-, rest, hrest, -, hread, hport⟩
    obtain ⟨lead, hlead, htrim⟩ := afterScheme?_eq_some hrest
    obtain ⟨tail, htail, hrest'⟩ := withoutSlash_append_tail rest
    refine ⟨lead, withoutSlash rest, tail, ?_, hlead, htail,
      SocketAddr.ofText?_eq_some.mp hread, hport⟩
    rw [List.append_assoc, ← hrest', htrim]
  · rintro ⟨lead, text, tail, htrim, hlead, htail, hspells, hport⟩
    have hslash := slash_not_mem hspells.isAddressChar
    rw [htrim, List.append_assoc]
    refine ⟨?_, text ++ tail, afterScheme?_append hlead hslash htail, ?_⟩
    · simp [hspells.ne_nil]
    · rw [withoutSlash_append hslash htail]
      exact ⟨hasPath_eq_false hspells.isAddressChar, SocketAddr.ofText?_eq_some.mpr hspells, hport⟩

/-- The printed address, with any blanks, the scheme and a slash around it, is read as the
address. -/
theorem parseBind_print {a : SocketAddr} (hport : a.port ≠ 0) {front lead tail back : List Char}
    (hfront : ∀ c ∈ front, isBlank c = true) (hback : ∀ c ∈ back, isBlank c = true)
    (hlead : HttpLead lead) (htail : SlashTail tail) :
    parseBind (String.ofList (front ++ (lead ++ a.print ++ tail) ++ back)) = .ok a := by
  have hspells := a.spells_print
  have hcore : ∀ c ∈ lead ++ a.print ++ tail, isBlank c = false := by
    simp only [List.forall_mem_append]
    exact ⟨⟨hlead.isBlank, fun c hc => isBlank_of_isAddressChar (hspells.isAddressChar c hc)⟩,
      htail.isBlank⟩
  have hne : lead ++ a.print ++ tail ≠ [] := by
    simp [hspells.ne_nil]
  rw [parseBind_eq_ok_iff, String.toList_ofList, trimChars_surround hfront hback hcore hne]
  exact ⟨lead, a.print, tail, rfl, hlead, htail, hspells, hport⟩

/-- **What can be listened on.**  A text is read as an address exactly if, blanks at its ends aside,
it is a text of that address behind nothing or `http://` in any case and before nothing or a slash,
and the port is not zero.  The texts of an address are those that `SocketAddr.Spells` lists.  Its
printed form is one of them, so it is read back from under all these trimmings. -/
theorem bind_addresses_decided :
    (∀ (raw : String) (a : SocketAddr), parseBind raw = .ok a ↔
      ∃ lead text tail, trimChars raw.toList = lead ++ text ++ tail ∧ HttpLead lead ∧
        SlashTail tail ∧ SocketAddr.ofText? text = some a ∧ a.port ≠ 0) ∧
    (∀ (text : List Char) (a : SocketAddr),
      SocketAddr.ofText? text = some a ↔ SocketAddr.Spells text a) ∧
    (∀ (a : SocketAddr) (front lead tail back : List Char), a.port ≠ 0 →
      (∀ c ∈ front, isBlank c = true) → (∀ c ∈ back, isBlank c = true) →
      HttpLead lead → SlashTail tail →
      parseBind (String.ofList (front ++ (lead ++ a.print ++ tail) ++ back)) = .ok a) := by
  refine ⟨?_, ?_, ?_⟩
  · intro raw a
    simp only [SocketAddr.ofText?_eq_some]
    exact parseBind_eq_ok_iff
  · intro text a
    exact SocketAddr.ofText?_eq_some
  · intro a front lead tail back hport hfront hback hlead htail
    exact parseBind_print hport hfront hback hlead htail

/-- A scope, a group left out, capitals in the scheme, a slash and blanks, all at once. -/
theorem bind_addresses_decided_scoped :
    parseBind " \t HTTP://[fe80::1:0%7]:8080/ " =
      .ok (.v6 ⟨[0xfe80, 0, 0, 0, 0, 0, 1, 0], rfl⟩ 7 8080) := by
  have hprint : (SocketAddr.v6 ⟨[0xfe80, 0, 0, 0, 0, 0, 1, 0], rfl⟩ 7 8080).print =
      "[fe80::1:0%7]:8080".toList := by decide +kernel
  have hread := bind_addresses_decided.2.2 (.v6 ⟨[0xfe80, 0, 0, 0, 0, 0, 1, 0], rfl⟩ 7 8080)
    " \t ".toList "HTTP://".toList ['/'] [' '] (by decide) (List.all_eq_true.mp (by decide))
    (List.all_eq_true.mp (by decide)) (.inr ⟨"HTTP".toList, by decide, rfl⟩) (.inr rfl)
  rw [hprint] at hread
  exact hread

end Foreman.Net
