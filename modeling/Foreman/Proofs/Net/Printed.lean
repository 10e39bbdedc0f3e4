/-
Printed addresses are texts of their address.

Of all texts of an address printing chooses one.  It leaves out a run of zeros if that is two
groups or longer, and it writes the last two groups in decimal if the address embeds one of
version 4.  What has to be seen is that no group is lost: the groups before the run, the run and
the groups behind it are all groups there are.
-/
import Foreman.Proofs.Net.Spelling

namespace Foreman.Net

open Text

/-! ### Numbers -/

theorem portText_print (port : UInt16) : PortText (Decimal.print port.toNat) port :=
  ⟨Decimal.read_print port.toNat, port.toNat_lt⟩

/-- Only a scope that is not zero is written. -/
theorem scopeText_print (scope : UInt32) :
    ScopeText (if scope = 0 then [] else '%' :: Decimal.print scope.toNat) scope := by
  by_cases hzero : scope = 0
  · rw [if_pos hzero, hzero]
    exact .none
  · rw [if_neg hzero]
    exact .scope ⟨Decimal.read_print scope.toNat, scope.toNat_lt⟩

/-! ### Groups -/

theorem groupText_print (g : UInt16) : GroupText (printGroup g) g := by
  refine ⟨?_, Hex.read_toDigits g.toNat⟩
  exact (Nat.length_toDigits_le_iff (by decide) (by decide)).mpr g.toNat_lt

theorem groupsText_print {gs : List UInt16} (h : gs ≠ []) :
    GroupsText (printGroups gs) gs false := by
  induction gs with
  | nil => exact absurd rfl h
  | cons g gs ih =>
    cases gs with
    | nil =>
      have hone : printGroups [g] = printGroup g := by simp [printGroups]
      rw [hone]
      exact .last (groupText_print g)
    | cons g' gs =>
      have hmore : printGroups (g :: g' :: gs) =
          printGroup g ++ ':' :: printGroups (g' :: gs) := by
        simp [printGroups, List.intercalate_cons_cons]
      rw [hmore]
      exact .cons (groupText_print g) (ih (List.cons_ne_nil g' gs))

theorem sideText_print (gs : List UInt16) : SideText (printGroups gs) gs false := by
  cases gs with
  | nil => exact .nothing
  | cons g gs => exact .groups (groupsText_print (List.cons_ne_nil g gs))

/-! ### The run of zeros -/

/-- The run at the front consists of zeros. -/
theorem zeroRun_append (gs : List UInt16) :
    List.replicate (zeroRun gs) 0 ++ gs.drop (zeroRun gs) = gs := by
  induction gs with
  | nil => rfl
  | cons g gs ih =>
    by_cases hzero : g = 0
    · have hmore : zeroRun (g :: gs) = zeroRun gs + 1 := by simp [zeroRun, hzero]
      rw [hmore, hzero, List.replicate_succ, List.drop_succ_cons, List.cons_append, ih]
    · have hnone : zeroRun (g :: gs) = 0 := by simp [zeroRun, hzero]
      rw [hnone]
      rfl

/-- **No group is lost** with the longest run of zeros. -/
theorem longestZeroRun_append (gs : List UInt16) :
    gs.take (longestZeroRun gs).1 ++ List.replicate (longestZeroRun gs).2 0 ++
      gs.drop ((longestZeroRun gs).1 + (longestZeroRun gs).2) = gs := by
  induction gs with
  | nil => rfl
  | cons g gs ih =>
    rw [longestZeroRun]
    split
    · have hshift : (longestZeroRun gs).1 + 1 + (longestZeroRun gs).2 =
          (longestZeroRun gs).1 + (longestZeroRun gs).2 + 1 := by omega
      rw [hshift, List.take_succ_cons, List.drop_succ_cons, List.cons_append, List.cons_append, ih]
    · simpa using zeroRun_append (g :: gs)

/-! ### Embedded addresses -/

/-- A group is its two bytes. -/
theorem bytes_append (x : UInt16) :
    ((x >>> 8).toUInt8.toUInt16 <<< 8) ||| x.toUInt8.toUInt16 = x := by
  have hx := x.toNat_lt
  have height : UInt16.toNat 8 % 16 = 8 := rfl
  have hlow : x.toNat % 2 ^ 8 < 2 ^ 8 := Nat.mod_lt _ (by decide)
  have hhigh : ((x.toNat >>> 8) % 2 ^ 8) <<< 8 % 2 ^ 16 = (x.toNat / 2 ^ 8) <<< 8 := by
    rw [Nat.shiftRight_eq_div_pow, Nat.shiftLeft_eq, Nat.shiftLeft_eq]
    omega
  apply UInt16.toNat_inj.mp
  rw [UInt16.toNat_or, UInt16.toNat_shiftLeft, UInt8.toNat_toUInt16, UInt8.toNat_toUInt16,
    UInt16.toNat_toUInt8, UInt16.toNat_toUInt8, UInt16.toNat_shiftRight, height, hhigh,
    ← Nat.shiftLeft_add_eq_or_of_lt hlow, Nat.shiftLeft_eq]
  omega

theorem groups_of_mapped? {ip : Ipv6} {v4 : Ipv4} (h : ip.mapped? = some v4) :
    ip.groups = List.replicate 5 0 ++ 0xffff :: v4.groups := by
  rw [Ipv6.mapped?] at h
  split at h
  · rename_i x y hgroups
    obtain rfl := Option.some.inj h
    rw [hgroups, Ipv4.groups, bytes_append, bytes_append]
    rfl
  · cases h

/-! ### Addresses -/

/-- The printed address of version 6 is a text of it. -/
theorem ipv6Text_print (ip : Ipv6) : Ipv6Text ip.print ip := by
  rw [Ipv6.print]
  cases hmapped : ip.mapped? with
  | some v4 =>
    have hback : GroupsText ("ffff".toList ++ ':' :: v4.print) (0xffff :: v4.groups) true :=
      .cons ⟨by decide, by decide⟩ (.embedded v4)
    have hroom : ([] : List UInt16).length + (0xffff :: v4.groups).length ≤ 7 := by
      show 0 + 3 ≤ 7
      decide
    exact .gap .nothing (.groups hback) hroom (groups_of_mapped? hmapped)
  | none =>
    dsimp only
    have happend := longestZeroRun_append ip.groups
    generalize longestZeroRun ip.groups = run at happend
    obtain ⟨start, length⟩ := run
    have hlength := congrArg List.length happend
    simp only [List.length_append, List.length_replicate] at hlength
    rw [ip.length_eq] at hlength
    dsimp only at happend hlength ⊢
    split
    · rename_i hlong
      refine .gap (sideText_print _) (sideText_print _) (by omega) ?_
      have hzeros : 8 - (ip.groups.take start).length - (ip.groups.drop (start + length)).length =
          length := by omega
      rw [hzeros]
      exact happend.symm
    · have hne : ip.groups ≠ [] := by
        intro hnil
        have hlen := ip.length_eq
        rw [hnil] at hlen
        cases hlen
      exact .full (groupsText_print hne)

/-- **A printed address is a text of it.** -/
theorem SocketAddr.spells_print (a : SocketAddr) : Spells a.print a := by
  cases a with
  | v4 ip port => exact .v4 (portText_print port)
  | v6 ip scope port =>
    exact .v6 (ipv6Text_print ip) (scopeText_print scope) (portText_print port)

end Foreman.Net
