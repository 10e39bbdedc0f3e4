/-
The texts of a socket address.

An address of version 4 has one text, an address of version 6 has many: groups may have leading
zeros, digits may be capitals, any groups that are zero may be left out once, and the last two
groups may be written in decimal.  `Ipv6Text` says which texts these are by the shape of the text
alone, without an order in which anything is tried, and `SocketAddr.Spells` adds brackets, scope
and port.

The reader is greedy and never goes back behind what it has taken.  That it still finds the
address of every such text is because of what follows each part: a part ends where the text has a
character that cannot go on with it, and an address in decimal shows by its first dot.  So each
step of the reader has a lemma that says what it takes from a text *and* what follows it.
-/
import Foreman.Net.Address
import Foreman.Proofs.Text.Decimal
import Foreman.Proofs.Text.Hex

namespace Foreman.Net

open Text

/-! ### What follows a part -/

/-- A text does not begin with a character of a kind. -/
def Ends (p : Char → Bool) (r : List Char) : Prop := ∀ c ∈ r.head?, p c = false

theorem ends_cons {p : Char → Bool} {c : Char} {r : List Char} : Ends p (c :: r) ↔ p c = false := by
  simp [Ends]

theorem ends_nil (p : Char → Bool) : Ends p [] := by
  intro c hc
  cases hc

theorem ends_dropWhile (p : Char → Bool) (s : List Char) : Ends p (s.dropWhile p) := by
  intro c hc
  have h := List.head?_dropWhile_not p s
  rw [Option.mem_def.mp hc] at h
  simpa using h

/-- The characters of a kind at the front are those before the first that is not of it. -/
theorem span_append {p : Char → Bool} {t r : List Char} (ht : ∀ c ∈ t, p c = true)
    (hr : Ends p r) : (t ++ r).takeWhile p = t ∧ (t ++ r).dropWhile p = r := by
  rw [List.takeWhile_append_of_pos ht, List.dropWhile_append_of_pos ht]
  cases r with
  | nil => simp
  | cons c r =>
    rw [ends_cons] at hr
    simp [hr]

theorem takeChar_eq_some {c : Char} {s r : List Char} : takeChar c s = some r ↔ s = c :: r := by
  cases s with
  | nil => simp [takeChar]
  | cons d s =>
    rw [takeChar]
    split
    · rename_i hd
      rw [hd, Option.some.injEq, List.cons_inj_right]
    · rename_i hd
      simp [hd]

/-! ### Numbers -/

/-- A decimal number below a bound, leading zeros allowed. -/
def DecimalText (bound : Nat) (t : List Char) (n : Nat) : Prop :=
  Decimal.read t = some n ∧ n < bound

theorem takeDecimal_eq_some {bound n : Nat} {s r : List Char} :
    takeDecimal bound s = some (n, r) ↔
      ∃ t, s = t ++ r ∧ DecimalText bound t n ∧ Ends Char.isDigit r := by
  rw [takeDecimal]
  constructor
  · intro h
    obtain ⟨m, hread, heq⟩ := Option.map_eq_some_iff.mp h
    obtain ⟨rfl, rfl⟩ := Prod.mk.inj heq
    obtain ⟨hvalue, hlt⟩ := Option.filter_eq_some_iff.mp hread
    exact ⟨s.takeWhile Char.isDigit, List.takeWhile_append_dropWhile.symm,
      ⟨hvalue, of_decide_eq_true hlt⟩, ends_dropWhile Char.isDigit s⟩
  · rintro ⟨t, rfl, ⟨hvalue, hlt⟩, hends⟩
    obtain ⟨htake, hdrop⟩ := span_append (Decimal.value_of_read hvalue).2.1 hends
    rw [htake, hdrop, Decimal.readBelow, hvalue, Option.filter_some,
      if_pos (decide_eq_true hlt), Option.map_some]

theorem ends_dot : ∀ r, Ends Char.isDigit ('.' :: r) := by
  intro r
  rw [ends_cons]
  decide

/-- A part of an address of version 4 has no leading zeros, so it is the number as printed. -/
theorem takePart_eq_some {b : UInt8} {s r : List Char} :
    takePart s = some (b, r) ↔ s = Decimal.print b.toNat ++ r ∧ Ends Char.isDigit r := by
  rw [takePart]
  constructor
  · intro h
    split at h
    · cases h
    · rename_i hlead
      obtain ⟨⟨n, r'⟩, htake, heq⟩ := Option.map_eq_some_iff.mp h
      obtain ⟨rfl, rfl⟩ := Prod.mk.inj heq
      obtain ⟨t, rfl, ⟨hvalue, hlt⟩, hends⟩ := takeDecimal_eq_some.mp htake
      rw [(span_append (Decimal.value_of_read hvalue).2.1 hends).1] at hlead
      have hnat : (UInt8.ofNat n).toNat = n := by
        rw [UInt8.toNat_ofNat', Nat.mod_eq_of_lt hlt]
      rw [hnat, ← Decimal.eq_print_of_read hvalue fun hlong hzero => hlead ⟨hlong, hzero⟩]
      exact ⟨rfl, hends⟩
  · rintro ⟨rfl, hends⟩
    have hdigits : ∀ c ∈ Decimal.print b.toNat, c.isDigit = true :=
      fun c hc => Decimal.isDigit_of_mem_print hc
    have hlead : ¬ ((Decimal.print b.toNat).length > 1 ∧
        (Decimal.print b.toNat).head? = some '0') := by
      rintro ⟨hlong, hzero⟩
      rcases Decimal.head_print b.toNat with h | ⟨d, rest, h, -, hne⟩
      · rw [h] at hlong
        exact absurd hlong (by decide)
      · rw [h] at hzero
        exact hne (Option.some.inj hzero)
    have htake : takeDecimal 256 (Decimal.print b.toNat ++ r) = some (b.toNat, r) :=
      takeDecimal_eq_some.mpr ⟨_, rfl, ⟨Decimal.read_print _, b.toNat_lt⟩, hends⟩
    rw [(span_append hdigits hends).1, if_neg hlead, htake, Option.map_some, UInt8.ofNat_toNat]

/-! ### Version 4 -/

theorem Ipv4.print_append (ip : Ipv4) (r : List Char) :
    ip.print ++ r = Decimal.print ip.a.toNat ++ '.' :: (Decimal.print ip.b.toNat ++
      '.' :: (Decimal.print ip.c.toNat ++ '.' :: (Decimal.print ip.d.toNat ++ r))) := by
  simp [Ipv4.print]

theorem takeIpv4_eq_some {ip : Ipv4} {s r : List Char} :
    takeIpv4 s = some (ip, r) ↔ s = ip.print ++ r ∧ Ends Char.isDigit r := by
  rw [Ipv4.print_append]
  constructor
  · intro h
    simp only [takeIpv4, Option.bind_eq_bind, Option.bind_eq_some_iff, Prod.exists,
      takeChar_eq_some, takePart_eq_some] at h
    obtain ⟨a, _, ⟨rfl, -⟩, _, rfl, b, _, ⟨rfl, -⟩, _, rfl, c, _, ⟨rfl, -⟩, _, rfl, d, _,
      ⟨rfl, hends⟩, heq⟩ := h
    obtain ⟨rfl, rfl⟩ := Prod.mk.inj (Option.some.inj heq)
    exact ⟨rfl, hends⟩
  · rintro ⟨rfl, hends⟩
    simp only [takeIpv4, Option.bind_eq_bind, Option.bind_eq_some_iff, Prod.exists,
      takeChar_eq_some, takePart_eq_some]
    exact ⟨ip.a, _, ⟨rfl, ends_dot _⟩, _, rfl, ip.b, _, ⟨rfl, ends_dot _⟩, _, rfl, ip.c, _,
      ⟨rfl, ends_dot _⟩, _, rfl, ip.d, r, ⟨rfl, hends⟩, rfl⟩

/-! ### Groups -/

/-- A hexadecimal digit, in either case. -/
def isHexDigit (c : Char) : Bool := (Hex.digit? c).isSome

/-- A group: one to four hexadecimal digits. -/
def GroupText (t : List Char) (g : UInt16) : Prop :=
  t.length ≤ 4 ∧ Hex.read t = some g.toNat

theorem GroupText.digits {t : List Char} {g : UInt16} (h : GroupText t g) :
    ∀ c ∈ t, isHexDigit c = true := (Hex.of_read h.2).1

theorem takeGroup_eq_some {g : UInt16} {s r : List Char} :
    takeGroup s = some (g, r) ↔ ∃ t, s = t ++ r ∧ GroupText t g ∧ Ends isHexDigit r := by
  show (if (s.takeWhile isHexDigit).length > 4 then none
    else (Hex.read (s.takeWhile isHexDigit)).map fun n =>
      (UInt16.ofNat n, s.dropWhile isHexDigit)) = some (g, r) ↔ _
  constructor
  · intro h
    split at h
    · cases h
    · rename_i hlength
      obtain ⟨n, hread, heq⟩ := Option.map_eq_some_iff.mp h
      obtain ⟨rfl, rfl⟩ := Prod.mk.inj heq
      have hlt : n < 2 ^ 16 := calc
        n < 16 ^ (s.takeWhile isHexDigit).length := (Hex.of_read hread).2
        _ ≤ 16 ^ 4 := Nat.pow_le_pow_right (by decide) (Nat.le_of_not_lt hlength)
      refine ⟨s.takeWhile isHexDigit, List.takeWhile_append_dropWhile.symm,
        ⟨Nat.le_of_not_lt hlength, ?_⟩, ends_dropWhile isHexDigit s⟩
      rw [UInt16.toNat_ofNat', Nat.mod_eq_of_lt hlt, hread]
  · rintro ⟨t, rfl, hgroup, hends⟩
    obtain ⟨htake, hdrop⟩ := span_append hgroup.digits hends
    rw [htake, hdrop, if_neg (Nat.not_lt.mpr hgroup.1), hgroup.2, Option.map_some,
      UInt16.ofNat_toNat]

/-- Groups joined by colons; the flag says whether the last two of them are written as an address
of version 4. -/
inductive GroupsText : List Char → List UInt16 → Bool → Prop where
  | last {t : List Char} {g : UInt16} (h : GroupText t g) : GroupsText t [g] false
  | embedded (ip : Ipv4) : GroupsText ip.print ip.groups true
  | cons {t s : List Char} {g : UInt16} {gs : List UInt16} {v4 : Bool} (h : GroupText t g)
      (hs : GroupsText s gs v4) : GroupsText (t ++ ':' :: s) (g :: gs) v4

/-- What stands on one side of the gap: groups joined by colons, or nothing. -/
inductive SideText : List Char → List UInt16 → Bool → Prop where
  | nothing : SideText [] [] false
  | groups {t : List Char} {gs : List UInt16} {v4 : Bool} (h : GroupsText t gs v4) :
      SideText t gs v4

/-- The texts of an address of version 6: eight groups, or fewer with a gap that stands for as many
zeros as are left out, but for one at least. -/
inductive Ipv6Text : List Char → Ipv6 → Prop where
  | full {t : List Char} {ip : Ipv6} {v4 : Bool} (h : GroupsText t ip.groups v4) : Ipv6Text t ip
  | gap {front back : List Char} {f b : List UInt16} {v4 : Bool} {ip : Ipv6}
      (hfront : SideText front f false) (hback : SideText back b v4)
      (hroom : f.length + b.length ≤ 7)
      (hgroups : ip.groups = f ++ List.replicate (8 - f.length - b.length) 0 ++ b) :
      Ipv6Text (front ++ ':' :: ':' :: back) ip

/-- What the reader puts before a group: a colon, unless the group is the first. -/
def separator (isFirst : Bool) : List Char := if isFirst then [] else [':']

theorem takeSeparator_eq_some {isFirst : Bool} {s r : List Char} :
    takeSeparator isFirst s = some r ↔ s = separator isFirst ++ r := by
  cases isFirst with
  | true => simp [takeSeparator, separator]
  | false =>
    rw [takeSeparator, if_neg (by decide), takeChar_eq_some]
    rfl

/-- Behind the separator stands an address of version 4. -/
theorem bind_takeIpv4_eq_some {isFirst : Bool} {s r : List Char} {ip : Ipv4} :
    (takeSeparator isFirst s).bind takeIpv4 = some (ip, r) ↔
      s = separator isFirst ++ ip.print ++ r ∧ Ends Char.isDigit r := by
  simp only [Option.bind_eq_some_iff, takeSeparator_eq_some, takeIpv4_eq_some, List.append_assoc]
  constructor
  · rintro ⟨_, rfl, rfl, hends⟩
    exact ⟨rfl, hends⟩
  · rintro ⟨rfl, hends⟩
    exact ⟨_, rfl, rfl, hends⟩

/-- Behind the separator stands a group. -/
theorem bind_takeGroup_eq_some {isFirst : Bool} {s r : List Char} {g : UInt16} :
    (takeSeparator isFirst s).bind takeGroup = some (g, r) ↔
      ∃ t, s = separator isFirst ++ t ++ r ∧ GroupText t g ∧ Ends isHexDigit r := by
  simp only [Option.bind_eq_some_iff, takeSeparator_eq_some, takeGroup_eq_some, List.append_assoc]
  constructor
  · rintro ⟨_, rfl, t, rfl, hgroup, hends⟩
    exact ⟨t, rfl, hgroup, hends⟩
  · rintro ⟨t, rfl, hgroup, hends⟩
    exact ⟨_, rfl, t, rfl, hgroup, hends⟩

theorem isHexDigit_of_isDigit {c : Char} (h : c.isDigit = true) : isHexDigit c = true := by
  have hrange : '0' ≤ c ∧ c ≤ '9' := by
    simpa [Char.isDigit, Char.le_def] using h
  rw [isHexDigit, Hex.digit?, if_pos hrange]
  rfl

theorem isHexDigit_of_mem_print {n : Nat} {c : Char} (h : c ∈ Decimal.print n) :
    isHexDigit c = true := isHexDigit_of_isDigit (Decimal.isDigit_of_mem_print h)

/-- A group is no address of version 4: no dot follows it. -/
theorem takeIpv4_group {t r : List Char} {g : UInt16} (h : GroupText t g)
    (hends : Ends isHexDigit r) (hdot : ∀ r', r ≠ '.' :: r') : takeIpv4 (t ++ r) = none := by
  rw [Option.eq_none_iff_forall_ne_some]
  rintro ⟨ip, r'⟩ htake
  obtain ⟨htext, -⟩ := takeIpv4_eq_some.mp htake
  rw [Ipv4.print_append] at htext
  have hdigits : ∀ c ∈ Decimal.print ip.a.toNat, isHexDigit c = true :=
    fun c hc => isHexDigit_of_mem_print hc
  have hdotEnds : ∀ s, Ends isHexDigit ('.' :: s) := by
    intro s
    rw [ends_cons]
    decide
  -- both texts go on behind the same hexadecimal digits
  have hleft := (span_append h.digits hends).2
  rw [htext, (span_append hdigits (hdotEnds _)).2] at hleft
  exact hdot _ hleft.symm

/-- Without a digit there is neither a group nor an address of version 4. -/
theorem takes_nothing {s : List Char} (h : Ends isHexDigit s) :
    takeIpv4 s = none ∧ takeGroup s = none := by
  have hhead {t r : List Char} (hne : t ≠ []) (ht : ∀ c ∈ t, isHexDigit c = true) :
      s ≠ t ++ r := by
    rintro rfl
    cases t with
    | nil => exact hne rfl
    | cons c t =>
      rw [List.cons_append, ends_cons, ht c List.mem_cons_self] at h
      cases h
  constructor
  · rw [Option.eq_none_iff_forall_ne_some]
    rintro ⟨ip, r⟩ htake
    obtain ⟨htext, -⟩ := takeIpv4_eq_some.mp htake
    rw [Ipv4.print_append] at htext
    exact hhead (Decimal.print_ne_nil _) (fun c hc => isHexDigit_of_mem_print hc) htext
  · rw [Option.eq_none_iff_forall_ne_some]
    rintro ⟨g, r⟩ htake
    obtain ⟨t, htext, hgroup, -⟩ := takeGroup_eq_some.mp htake
    exact hhead (Hex.ne_nil_of_read hgroup.2) hgroup.digits htext

/-- The reader of groups stops where no group follows. -/
theorem takeGroups_of_none {limit : Nat} {isFirst : Bool} {s : List Char}
    (hip : (takeSeparator isFirst s).bind takeIpv4 = none)
    (hgroup : (takeSeparator isFirst s).bind takeGroup = none) :
    takeGroups limit isFirst s = ([], false, s) := by
  cases limit with
  | zero => rfl
  | succ limit =>
    rw [takeGroups, hip, hgroup]
    simp

theorem takeGroups_first_of_ends {limit : Nat} {s : List Char} (h : Ends isHexDigit s) :
    takeGroups limit true s = ([], false, s) := by
  obtain ⟨hip, hgroup⟩ := takes_nothing h
  exact takeGroups_of_none hip hgroup

/-- What may follow groups: the gap, a scope, or the end of the brackets. -/
inductive FollowsGroups : List Char → Prop where
  | gap (r : List Char) : FollowsGroups (':' :: ':' :: r)
  | scope (r : List Char) : FollowsGroups ('%' :: r)
  | bracket (r : List Char) : FollowsGroups (']' :: r)

theorem FollowsGroups.ends {r : List Char} (h : FollowsGroups r) :
    Ends isHexDigit r ∧ Ends Char.isDigit r ∧ ∀ r', r ≠ '.' :: r' := by
  cases h with
  | gap r => exact ⟨ends_cons.mpr (by decide), ends_cons.mpr (by decide), by simp⟩
  | scope r => exact ⟨ends_cons.mpr (by decide), ends_cons.mpr (by decide), by simp⟩
  | bracket r => exact ⟨ends_cons.mpr (by decide), ends_cons.mpr (by decide), by simp⟩

/-- Nothing that may follow groups is taken for another group. -/
theorem FollowsGroups.takeGroups {r : List Char} (h : FollowsGroups r) (limit : Nat) :
    takeGroups limit false r = ([], false, r) := by
  cases h with
  | gap r =>
    have hends : Ends isHexDigit (':' :: r) := ends_cons.mpr (by decide)
    obtain ⟨hip, hgroup⟩ := takes_nothing hends
    exact takeGroups_of_none hip hgroup
  | scope r => exact takeGroups_of_none rfl rfl
  | bracket r => exact takeGroups_of_none rfl rfl

/-- **Groups are taken whole** where there is room for them, and nothing else. -/
theorem takeGroups_of_groupsText {t r : List Char} {gs : List UInt16} {v4 : Bool}
    (h : GroupsText t gs v4) (hr : FollowsGroups r) :
    ∀ {limit : Nat} {isFirst : Bool}, gs.length ≤ limit →
      takeGroups limit isFirst (separator isFirst ++ t ++ r) = (gs, v4, r) := by
  obtain ⟨hhex, hdigit, hdot⟩ := hr.ends
  induction h with
  | @last t g h =>
    intro limit isFirst hlimit
    obtain ⟨limit, rfl⟩ := Nat.exists_eq_succ_of_ne_zero (Nat.ne_of_gt hlimit)
    have hsep : takeSeparator isFirst (separator isFirst ++ t ++ r) = some (t ++ r) :=
      takeSeparator_eq_some.mpr (List.append_assoc _ _ _)
    have hip : takeIpv4 (t ++ r) = none := takeIpv4_group h hhex hdot
    have hgroup : takeGroup (t ++ r) = some (g, r) := takeGroup_eq_some.mpr ⟨t, rfl, h, hhex⟩
    rw [takeGroups, hsep, Option.bind_some, Option.bind_some, hip, ite_self, hgroup]
    dsimp only
    rw [hr.takeGroups]
  | embedded ip =>
    intro limit isFirst hlimit
    obtain ⟨limit, rfl⟩ : ∃ k, limit = k + 2 := Nat.exists_eq_add_of_le' hlimit
    have hip : (takeSeparator isFirst (separator isFirst ++ ip.print ++ r)).bind takeIpv4 =
        some (ip, r) := bind_takeIpv4_eq_some.mpr ⟨rfl, hdigit⟩
    rw [takeGroups, if_neg (Nat.succ_ne_zero limit), hip]
  | @cons t s g gs v4 h hs ih =>
    intro limit isFirst hlimit
    obtain ⟨limit, rfl⟩ := Nat.exists_eq_succ_of_ne_zero (Nat.ne_of_gt (Nat.zero_lt_of_lt hlimit))
    have hcolon : Ends isHexDigit (':' :: (s ++ r)) := ends_cons.mpr (by decide)
    have hsep : takeSeparator isFirst (separator isFirst ++ (t ++ ':' :: s) ++ r) =
        some (t ++ ':' :: (s ++ r)) := takeSeparator_eq_some.mpr (by simp)
    have hip : takeIpv4 (t ++ ':' :: (s ++ r)) = none := takeIpv4_group h hcolon (by simp)
    have hgroup : takeGroup (t ++ ':' :: (s ++ r)) = some (g, ':' :: (s ++ r)) :=
      takeGroup_eq_some.mpr ⟨t, rfl, h, hcolon⟩
    have hrest : takeGroups limit false (':' :: (s ++ r)) = (gs, v4, r) :=
      @ih limit false (Nat.le_of_succ_le_succ hlimit)
    rw [takeGroups, hsep, Option.bind_some, Option.bind_some, hip, ite_self, hgroup]
    dsimp only
    rw [hrest]

/-- Whatever the reader takes for groups is a text of them, and there is room for them. -/
theorem groupsText_of_takeGroups :
    ∀ {limit : Nat} {isFirst : Bool} {s r : List Char} {gs : List UInt16} {v4 : Bool},
      takeGroups limit isFirst s = (gs, v4, r) →
        (gs = [] ∧ v4 = false ∧ r = s) ∨
          ∃ t, s = separator isFirst ++ t ++ r ∧ GroupsText t gs v4 ∧ gs.length ≤ limit := by
  intro limit
  induction limit with
  | zero =>
    intro isFirst s r gs v4 h
    cases h
    exact .inl ⟨rfl, rfl, rfl⟩
  | succ limit ih =>
    intro isFirst s r gs v4 h
    rw [takeGroups] at h
    split at h
    · rename_i ip rest hip
      split at hip
      · cases hip
      · rename_i hroom
        obtain ⟨htext, -⟩ := bind_takeIpv4_eq_some.mp hip
        cases h
        have hlength : ip.groups.length ≤ limit + 1 :=
          Nat.succ_le_succ (Nat.one_le_iff_ne_zero.mpr hroom)
        exact .inr ⟨ip.print, htext, .embedded ip, hlength⟩
    · split at h
      · rename_i g rest hgroup
        obtain ⟨t, rfl, ht, -⟩ := bind_takeGroup_eq_some.mp hgroup
        generalize hmore : takeGroups limit false rest = more at h
        obtain ⟨gs', v4', r'⟩ := more
        cases h
        right
        rcases ih hmore with ⟨rfl, rfl, rfl⟩ | ⟨t', rfl, ht', hroom⟩
        · exact ⟨t, rfl, .last ht, Nat.succ_le_succ (Nat.zero_le limit)⟩
        · refine ⟨t ++ ':' :: t', ?_, .cons ht ht', Nat.succ_le_succ hroom⟩
          simp [separator]
      · cases h
        exact .inl ⟨rfl, rfl, rfl⟩

/-! ### Version 6 -/

theorem SideText.groups_of_ne {t : List Char} {gs : List UInt16} {v4 : Bool}
    (h : SideText t gs v4) (hne : gs ≠ []) : GroupsText t gs v4 := by
  cases h with
  | nothing => exact absurd rfl hne
  | groups h => exact h

theorem takeGroups_of_side {t r : List Char} {gs : List UInt16} {v4 : Bool}
    (h : SideText t gs v4) (hr : FollowsGroups r) {limit : Nat} (hroom : gs.length ≤ limit) :
    takeGroups limit true (t ++ r) = (gs, v4, r) := by
  cases h with
  | nothing => exact takeGroups_first_of_ends hr.ends.1
  | groups h => exact takeGroups_of_groupsText h hr hroom

theorem side_of_takeGroups {limit : Nat} {s r : List Char} {gs : List UInt16} {v4 : Bool}
    (h : takeGroups limit true s = (gs, v4, r)) :
    ∃ t, s = t ++ r ∧ SideText t gs v4 ∧ gs.length ≤ limit := by
  rcases groupsText_of_takeGroups h with ⟨rfl, rfl, rfl⟩ | ⟨t, rfl, ht, hroom⟩
  · exact ⟨[], rfl, .nothing, Nat.zero_le limit⟩
  · exact ⟨t, rfl, .groups ht, hroom⟩

theorem ofGroups?_eq_some {gs : List UInt16} {ip : Ipv6} :
    Ipv6.ofGroups? gs = some ip ↔ ip.groups = gs := by
  obtain ⟨groups, hlength⟩ := ip
  rw [Ipv6.ofGroups?]
  constructor
  · intro h
    split at h
    · exact (congrArg Ipv6.groups (Option.some.inj h)).symm
    · cases h
  · rintro rfl
    rw [dif_pos hlength]

/-- What may follow an address in brackets. -/
inductive FollowsIpv6 : List Char → Prop where
  | scope (r : List Char) : FollowsIpv6 ('%' :: r)
  | bracket (r : List Char) : FollowsIpv6 (']' :: r)

theorem FollowsIpv6.followsGroups {r : List Char} (h : FollowsIpv6 r) : FollowsGroups r := by
  cases h with
  | scope r => exact .scope r
  | bracket r => exact .bracket r

/-- **Every text of an address of version 6 is taken for it.** -/
theorem takeIpv6_of_text {t r : List Char} {ip : Ipv6} (h : Ipv6Text t ip) (hr : FollowsIpv6 r) :
    takeIpv6 (t ++ r) = some (ip, r) := by
  cases h with
  | @full _ _ v4 h =>
    have hall : takeGroups 8 true (t ++ r) = (ip.groups, v4, r) :=
      takeGroups_of_groupsText h hr.followsGroups (Nat.le_of_eq ip.length_eq)
    rw [takeIpv6, hall]
    dsimp only
    rw [if_pos ip.length_eq, ofGroups?_eq_some.mpr rfl, Option.map_some]
  | @gap front back f b v4 _ hfront hback hroom hgroups =>
    have hfirst : takeGroups 8 true (front ++ ':' :: ':' :: (back ++ r)) =
        (f, false, ':' :: ':' :: (back ++ r)) :=
      takeGroups_of_side hfront (.gap _) (by omega)
    have hsecond : takeGroups (7 - f.length) true (back ++ r) = (b, v4, r) :=
      takeGroups_of_side hback hr.followsGroups (by omega)
    have hshort : f.length ≠ 8 := by omega
    have hcolon (s : List Char) : takeChar ':' (':' :: s) = some s := takeChar_eq_some.mpr rfl
    rw [List.append_assoc, List.cons_append, List.cons_append, takeIpv6, hfirst]
    dsimp only
    rw [if_neg hshort, if_neg (by decide)]
    simp only [Option.bind_eq_bind, hcolon, Option.bind_some, hsecond]
    rw [ofGroups?_eq_some.mpr hgroups]
    rfl

/-- Nothing but a text of an address is taken for one. -/
theorem text_of_takeIpv6 {s r : List Char} {ip : Ipv6} (h : takeIpv6 s = some (ip, r)) :
    ∃ t, s = t ++ r ∧ Ipv6Text t ip := by
  rw [takeIpv6] at h
  generalize hfirst : takeGroups 8 true s = first at h
  obtain ⟨f, v4, s'⟩ := first
  obtain ⟨front, rfl, hfront, hlength⟩ := side_of_takeGroups hfirst
  dsimp only at h
  split at h
  · rename_i hfull
    obtain ⟨ip', hip, heq⟩ := Option.map_eq_some_iff.mp h
    obtain ⟨rfl, rfl⟩ := Prod.mk.inj heq
    obtain rfl := ofGroups?_eq_some.mp hip
    exact ⟨front, rfl, .full (hfront.groups_of_ne (List.ne_nil_of_length_pos (by omega)))⟩
  · rename_i hshort
    split at h
    · cases h
    · rename_i hv4
      obtain rfl : v4 = false := Bool.eq_false_of_not_eq_true hv4
      simp only [Option.bind_eq_bind, Option.bind_eq_some_iff, takeChar_eq_some] at h
      obtain ⟨_, rfl, s'', rfl, h⟩ := h
      generalize hsecond : takeGroups (7 - f.length) true s'' = second at h
      obtain ⟨b, v4', r'⟩ := second
      obtain ⟨back, rfl, hback, hroom⟩ := side_of_takeGroups hsecond
      obtain ⟨ip', hip, heq⟩ := h
      obtain ⟨rfl, rfl⟩ := Prod.mk.inj (Option.some.inj heq)
      refine ⟨front ++ ':' :: ':' :: back, by simp, ?_⟩
      exact .gap hfront hback (by omega) (ofGroups?_eq_some.mp hip)

/-! ### Scope, port and the whole address -/

/-- A scope behind a percent sign, or none, which stands for zero. -/
inductive ScopeText : List Char → UInt32 → Prop where
  | none : ScopeText [] 0
  | scope {t : List Char} {scope : UInt32} (h : DecimalText (2 ^ 32) t scope.toNat) :
      ScopeText ('%' :: t) scope

/-- A port. -/
def PortText (t : List Char) (port : UInt16) : Prop := DecimalText (2 ^ 16) t port.toNat

/-- **The texts of a socket address**, whatever stands before and behind them. -/
inductive SocketAddr.Spells : List Char → SocketAddr → Prop where
  | v4 {ip : Ipv4} {t : List Char} {port : UInt16} (hport : PortText t port) :
      Spells (ip.print ++ ':' :: t) (.v4 ip port)
  | v6 {ip : Ipv6} {address zone t : List Char} {scope : UInt32} {port : UInt16}
      (hip : Ipv6Text address ip) (hscope : ScopeText zone scope) (hport : PortText t port) :
      Spells ('[' :: address ++ zone ++ ']' :: ':' :: t) (.v6 ip scope port)

theorem takePort_eq_some {port : UInt16} {s r : List Char} :
    takePort s = some (port, r) ↔
      ∃ t, s = ':' :: (t ++ r) ∧ PortText t port ∧ Ends Char.isDigit r := by
  simp only [takePort, Option.bind_eq_bind, Option.bind_eq_some_iff, takeChar_eq_some, Prod.exists,
    takeDecimal_eq_some]
  constructor
  · rintro ⟨_, rfl, n, _, ⟨t, rfl, hport, hends⟩, heq⟩
    obtain ⟨rfl, rfl⟩ := Prod.mk.inj (Option.some.inj heq)
    have hnat : (UInt16.ofNat n).toNat = n := by
      rw [UInt16.toNat_ofNat', Nat.mod_eq_of_lt hport.2]
    refine ⟨t, rfl, ?_, hends⟩
    rw [PortText, hnat]
    exact hport
  · rintro ⟨t, rfl, hport, hends⟩
    refine ⟨_, rfl, port.toNat, r, ⟨t, rfl, hport, hends⟩, ?_⟩
    rw [UInt16.ofNat_toNat]
    rfl

/-- What is taken for a scope is a text of one. -/
theorem text_of_takeScope (s : List Char) :
    ∃ t, s = t ++ (takeScope s).2 ∧ ScopeText t (takeScope s).1 := by
  unfold takeScope
  split
  · rename_i n rest htake
    obtain ⟨s', hpercent, hdecimal⟩ := Option.bind_eq_some_iff.mp htake
    obtain ⟨t, rfl, hvalue, -⟩ := takeDecimal_eq_some.mp hdecimal
    obtain rfl := takeChar_eq_some.mp hpercent
    have hnat : (UInt32.ofNat n).toNat = n := by
      rw [UInt32.toNat_ofNat', Nat.mod_eq_of_lt hvalue.2]
    refine ⟨'%' :: t, rfl, .scope ?_⟩
    rw [hnat]
    exact hvalue
  · exact ⟨[], rfl, .none⟩

/-- The text of a scope is taken for it. -/
theorem takeScope_of_text {t r : List Char} {scope : UInt32} (h : ScopeText t scope) :
    takeScope (t ++ ']' :: r) = (scope, ']' :: r) := by
  cases h with
  | none => rfl
  | @scope t _ h =>
    have hends : Ends Char.isDigit (']' :: r) := ends_cons.mpr (by decide)
    have htake : takeDecimal (Nat.pow 2 32) (t ++ ']' :: r) = some (scope.toNat, ']' :: r) :=
      takeDecimal_eq_some.mpr ⟨t, rfl, h, hends⟩
    have hpercent : takeChar '%' ('%' :: (t ++ ']' :: r)) = some (t ++ ']' :: r) :=
      takeChar_eq_some.mpr rfl
    rw [List.cons_append, takeScope, hpercent, Option.bind_some, htake]
    dsimp only
    rw [UInt32.ofNat_toNat]

namespace SocketAddr

theorem spells_of_takeV4 {s : List Char} {a : SocketAddr} (h : takeV4 s = some (a, [])) :
    Spells s a := by
  simp only [takeV4, Option.bind_eq_bind, Option.bind_eq_some_iff, Prod.exists, takeIpv4_eq_some,
    takePort_eq_some] at h
  obtain ⟨ip, _, ⟨rfl, -⟩, port, r, ⟨t, rfl, hport, -⟩, heq⟩ := h
  obtain ⟨rfl, rfl⟩ := Prod.mk.inj (Option.some.inj heq)
  rw [List.append_nil]
  exact .v4 hport

theorem spells_of_takeV6 {s : List Char} {a : SocketAddr} (h : takeV6 s = some (a, [])) :
    Spells s a := by
  simp only [takeV6, Option.bind_eq_bind, Option.bind_eq_some_iff, Prod.exists, takeChar_eq_some,
    takePort_eq_some] at h
  obtain ⟨_, rfl, ip, s', hip, _, hbracket, port, r, ⟨t, rfl, hport, -⟩, heq⟩ := h
  obtain ⟨address, rfl, haddress⟩ := text_of_takeIpv6 hip
  obtain ⟨zone, hzoned, hzone⟩ := text_of_takeScope s'
  generalize takeScope s' = taken at hbracket heq hzoned hzone
  obtain ⟨scope, rest⟩ := taken
  obtain rfl : rest = ']' :: ':' :: (t ++ r) := hbracket
  obtain rfl := hzoned
  obtain ⟨rfl, rfl⟩ := Prod.mk.inj (Option.some.inj heq)
  have hspelled := Spells.v6 haddress hzone hport
  simpa using hspelled

theorem takeV4_of_text {ip : Ipv4} {t : List Char} {port : UInt16} (hport : PortText t port) :
    takeV4 (ip.print ++ ':' :: t) = some (v4 ip port, []) := by
  have hcolon : Ends Char.isDigit (':' :: t) := ends_cons.mpr (by decide)
  have hip : takeIpv4 (ip.print ++ ':' :: t) = some (ip, ':' :: t) :=
    takeIpv4_eq_some.mpr ⟨rfl, hcolon⟩
  have htake : takePort (':' :: t) = some (port, []) :=
    takePort_eq_some.mpr ⟨t, by rw [List.append_nil], hport, ends_nil _⟩
  rw [takeV4, hip]
  simp only [Option.bind_eq_bind, Option.bind_some, htake]
  rfl

/-- An address in brackets is not of version 4. -/
theorem takeV4_bracket (s : List Char) : takeV4 ('[' :: s) = none := by
  have hends : Ends isHexDigit ('[' :: s) := ends_cons.mpr (by decide)
  rw [takeV4, (takes_nothing hends).1]
  rfl

theorem takeV6_of_text {ip : Ipv6} {address zone t : List Char} {scope : UInt32} {port : UInt16}
    (hip : Ipv6Text address ip) (hscope : ScopeText zone scope) (hport : PortText t port) :
    takeV6 ('[' :: address ++ zone ++ ']' :: ':' :: t) = some (v6 ip scope port, []) := by
  have hfollows : FollowsIpv6 (zone ++ ']' :: ':' :: t) := by
    cases hscope with
    | none => exact .bracket _
    | scope h => exact .scope _
  have haddress : takeIpv6 (address ++ (zone ++ ']' :: ':' :: t)) =
      some (ip, zone ++ ']' :: ':' :: t) := takeIpv6_of_text hip hfollows
  have hbracket (c : Char) (s : List Char) : takeChar c (c :: s) = some s :=
    takeChar_eq_some.mpr rfl
  have htake : takePort (':' :: t) = some (port, []) :=
    takePort_eq_some.mpr ⟨t, by rw [List.append_nil], hport, ends_nil _⟩
  rw [List.append_assoc, List.cons_append, takeV6]
  simp only [Option.bind_eq_bind, Option.bind_some, hbracket, haddress, takeScope_of_text hscope,
    htake]
  rfl

/-- **The reader finds the address of every text of one, and of no other text.** -/
theorem ofText?_eq_some {s : List Char} {a : SocketAddr} : ofText? s = some a ↔ Spells s a := by
  rw [ofText?]
  constructor
  · intro h
    split at h
    · rename_i found hfound
      obtain rfl := Option.some.inj h
      rcases Option.or_eq_some_iff.mp hfound with hv4 | ⟨-, hv6⟩
      · exact spells_of_takeV4 hv4
      · exact spells_of_takeV6 hv6
    · cases h
  · intro h
    cases h with
    | v4 hport => rw [takeV4_of_text hport, Option.some_or]
    | v6 hip hscope hport =>
      rw [takeV6_of_text hip hscope hport, List.append_assoc, List.cons_append, takeV4_bracket,
        Option.none_or]

end SocketAddr

end Foreman.Net
