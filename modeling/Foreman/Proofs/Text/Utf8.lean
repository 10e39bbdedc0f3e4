/-
A text is read back from its bytes.

The bytes of a text are the bytes of its characters, one character after the other, and
the first byte of a character says how many there are.  So whatever follows, a character
is read where it was written, and no byte of it is taken for another.

Bytes that are no text are read as well, and then too a character takes no more bytes than
those that it was read from.
-/
import Mathlib.Algebra.Ring.Nat
import Mathlib.Data.List.Basic
import Foreman.Text.Utf8

namespace Foreman.Text

/-! ### The bytes of a text -/

theorem toList_loop (bytes : ByteArray) (i : Nat) (r : List UInt8) :
    ByteArray.toList.loop bytes i r = r.reverse ++ bytes.data.toList.drop i := by
  fun_induction ByteArray.toList.loop bytes i r with
  | case1 i r h ih =>
      have hi : i < bytes.data.toList.length := by simpa using h
      rw [ih, List.drop_eq_getElem_cons hi]
      simp [ByteArray.get!, h]
  | case2 i r h =>
      rw [List.drop_eq_nil_of_le (by simpa using Nat.le_of_not_lt h), List.append_nil]

theorem utf8_eq_flatMap (s : String) : utf8 s = s.toList.flatMap String.utf8EncodeChar := by
  have hdata : s.toByteArray.data.toList = s.toList.flatMap String.utf8EncodeChar := by
    rw [← String.utf8Encode_toList]
    exact List.toList_data_toByteArray
  rw [utf8, String.toUTF8_eq_toByteArray, ByteArray.toList, toList_loop, hdata]
  rfl

theorem utf8_append (s t : String) : utf8 (s ++ t) = utf8 s ++ utf8 t := by
  rw [utf8_eq_flatMap, utf8_eq_flatMap, utf8_eq_flatMap, String.toList_append,
    List.flatMap_append]

/-! ### The bytes of a character -/

theorem toNat_ofNat_of_lt_256 {n : Nat} (h : n < 256) : (UInt8.ofNat n).toNat = n := by
  rw [UInt8.toNat_ofNat', Nat.mod_eq_of_lt h]

theorem continuation?_ofNat {n : Nat} (h : n < 64) :
    continuation? (UInt8.ofNat (n + 128)) = some n := by
  rw [continuation?, toNat_ofNat_of_lt_256 (by omega), if_pos (by omega), Nat.add_sub_cancel]

theorem isValidChar_toNat (c : Char) : c.toNat.isValidChar := c.valid

theorem scalar?_toNat {c : Char} {n : Nat} (h : n = c.toNat) : scalar? n = some c := by
  rw [h, scalar?, if_pos (isValidChar_toNat c), Char.ofNat_toNat]

section

variable {c : Char} (following : List UInt8)

theorem charAt?_of_one (h : c.toNat ≤ 127) :
    charAt? (UInt8.ofNat c.toNat) following = some (c, 0) := by
  have hfirst := toNat_ofNat_of_lt_256 (n := c.toNat) (by omega)
  unfold charAt?
  rw [hfirst]
  dsimp only
  rw [if_pos (by omega), Char.ofNat_toNat]

theorem charAt?_of_two (hlow : 127 < c.toNat) (hhigh : c.toNat ≤ 2047) :
    charAt? (UInt8.ofNat (c.toNat / 64 % 32 + 192))
      (UInt8.ofNat (c.toNat % 64 + 128) :: following) = some (c, 1) := by
  have hfirst := toNat_ofNat_of_lt_256 (n := c.toNat / 64 % 32 + 192) (by omega)
  have hcode : (c.toNat / 64 % 32 + 192 - 0xc0) * 64 + c.toNat % 64 = c.toNat := by omega
  unfold charAt?
  rw [hfirst]
  dsimp only
  rw [if_neg (by omega), if_pos (by omega), continuation?_ofNat (by omega)]
  simp only [Option.bind_eq_bind, Option.bind_some, scalar?_toNat hcode, Option.pure_def]

theorem charAt?_of_three (hlow : 2047 < c.toNat) (hhigh : c.toNat ≤ 65535) :
    charAt? (UInt8.ofNat (c.toNat / 4096 % 16 + 224))
      (UInt8.ofNat (c.toNat / 64 % 64 + 128) :: UInt8.ofNat (c.toNat % 64 + 128) :: following) =
      some (c, 2) := by
  have hfirst := toNat_ofNat_of_lt_256 (n := c.toNat / 4096 % 16 + 224) (by omega)
  have hcode : (c.toNat / 4096 % 16 + 224 - 0xe0) * 4096 + c.toNat / 64 % 64 * 64 +
      c.toNat % 64 = c.toNat := by omega
  have hlong : ¬ c.toNat < 0x800 := by omega
  unfold charAt?
  rw [hfirst]
  dsimp only
  rw [if_neg (by omega), if_neg (by omega), if_pos (by omega), continuation?_ofNat (by omega),
    continuation?_ofNat (by omega)]
  simp only [Option.bind_eq_bind, Option.bind_some, hcode, if_neg hlong, scalar?_toNat rfl,
    Option.pure_def]

theorem charAt?_of_four (hlow : 65535 < c.toNat) :
    charAt? (UInt8.ofNat (c.toNat / 262144 % 8 + 240))
      (UInt8.ofNat (c.toNat / 4096 % 64 + 128) :: UInt8.ofNat (c.toNat / 64 % 64 + 128) ::
        UInt8.ofNat (c.toNat % 64 + 128) :: following) = some (c, 3) := by
  have hvalid : c.toNat < 0xd800 ∨ 0xdfff < c.toNat ∧ c.toNat < 0x110000 := isValidChar_toNat c
  have hfirst := toNat_ofNat_of_lt_256 (n := c.toNat / 262144 % 8 + 240) (by omega)
  have hcode : (c.toNat / 262144 % 8 + 240 - 0xf0) * 262144 + c.toNat / 4096 % 64 * 4096 +
      c.toNat / 64 % 64 * 64 + c.toNat % 64 = c.toNat := by omega
  have hlong : ¬ c.toNat < 0x10000 := by omega
  unfold charAt?
  rw [hfirst]
  dsimp only
  rw [if_neg (by omega), if_neg (by omega), if_neg (by omega), if_pos (by omega),
    continuation?_ofNat (by omega), continuation?_ofNat (by omega), continuation?_ofNat (by omega)]
  -- by definition the kernel would unfold the code point, which is slow
  simp -implicitDefEqProofs only [Option.bind_eq_bind, Option.bind_some, hcode, if_neg hlong,
    scalar?_toNat rfl, Option.pure_def]

end

/-- A character is read from its bytes, whatever follows them. -/
theorem charAt?_utf8EncodeChar (c : Char) (following : List UInt8) :
    ∃ b rest, String.utf8EncodeChar c = b :: rest ∧
      charAt? b (rest ++ following) = some (c, rest.length) := by
  have hval : c.val.toNat = c.toNat := rfl
  simp only [String.utf8EncodeChar, hval]
  split
  · rename_i h1
    exact ⟨_, _, rfl, charAt?_of_one following h1⟩
  · rename_i h1
    split
    · rename_i h2
      exact ⟨_, _, rfl, charAt?_of_two following (by omega) h2⟩
    · rename_i h2
      split
      · rename_i h3
        exact ⟨_, _, rfl, charAt?_of_three following (by omega) h3⟩
      · rename_i h3
        exact ⟨_, _, rfl, charAt?_of_four following (by omega)⟩

/-! ### Reading -/

/-- **A text is read back from its bytes**, every unit a character. -/
theorem unitsOfBytes_utf8 (s : String) : unitsOfBytes (utf8 s) = s.toList.map some := by
  rw [utf8_eq_flatMap]
  induction s.toList with
  | nil => simp [unitsOfBytes]
  | cons c cs ih =>
      obtain ⟨b, rest, hbytes, hread⟩ :=
        charAt?_utf8EncodeChar c (cs.flatMap String.utf8EncodeChar)
      rw [List.flatMap_cons, hbytes, List.cons_append, unitsOfBytes, hread]
      dsimp only
      rw [List.drop_left, ih, List.map_cons]

/-! ### How many bytes there are -/

theorem toNat_of_scalar? {n : Nat} {c : Char} (h : scalar? n = some c) : c.toNat = n := by
  unfold scalar? at h
  split at h
  · rename_i hvalid
    cases h
    rw [Char.ofNat, dif_pos hvalid]
    rfl
  · cases h

section

variable {c : Char}

theorem utf8Size_of_lt_0x80 (h : c.toNat < 0x80) : c.utf8Size = 1 :=
  Char.utf8Size_eq_one_iff.mpr (UInt32.le_iff_toNat_le.mpr (Nat.le_of_lt_succ h))

theorem utf8Size_of_lt_0x800 (h : c.toNat < 0x800) : c.utf8Size ≤ 2 := by
  have hval : c.val.toNat = c.toNat := rfl
  unfold Char.utf8Size
  simp only [UInt32.le_iff_toNat_le, hval, UInt32.toNat_ofNatLT]
  split_ifs <;> omega

theorem utf8Size_of_lt_0x10000 (h : c.toNat < 0x10000) : c.utf8Size ≤ 3 := by
  have hval : c.val.toNat = c.toNat := rfl
  unfold Char.utf8Size
  simp only [UInt32.le_iff_toNat_le, hval, UInt32.toNat_ofNatLT]
  split_ifs <;> omega

end

theorem continuation?_lt {b : UInt8} {x : Nat} (h : continuation? b = some x) : x < 64 := by
  unfold continuation? at h
  split at h
  · have hx := Option.some.inj h
    omega
  · cases h

/-- A character takes no more bytes than it was read from. -/
theorem charAt?_size {b : UInt8} {rest : List UInt8} {c : Char} {n : Nat}
    (h : charAt? b rest = some (c, n)) : c.utf8Size ≤ n + 1 ∧ n ≤ rest.length := by
  unfold charAt? at h
  dsimp only at h
  split at h
  · -- one byte
    rename_i hone
    cases h
    refine ⟨Nat.le_of_eq (utf8Size_of_lt_0x80 ?_), Nat.zero_le _⟩
    rw [Char.ofNat, dif_pos (.inl (by omega))]
    exact hone
  split at h
  · rename_i htwo
    split at h
    · obtain ⟨x, hx, h⟩ := Option.bind_eq_some_iff.mp h
      obtain ⟨d, hd, h⟩ := Option.bind_eq_some_iff.mp h
      cases h
      have hcode := toNat_of_scalar? hd
      have hlow := continuation?_lt hx
      exact ⟨utf8Size_of_lt_0x800 (by omega), by simp⟩
    · cases h
  split at h
  · rename_i hthree
    split at h
    · obtain ⟨x, hx, h⟩ := Option.bind_eq_some_iff.mp h
      obtain ⟨y, hy, h⟩ := Option.bind_eq_some_iff.mp h
      split at h
      · cases h
      · obtain ⟨d, hd, h⟩ := Option.bind_eq_some_iff.mp h
        cases h
        have hcode := toNat_of_scalar? hd
        have hx' := continuation?_lt hx
        have hy' := continuation?_lt hy
        exact ⟨utf8Size_of_lt_0x10000 (by omega), by simp⟩
    · cases h
  split at h
  · split at h
    · obtain ⟨x, -, h⟩ := Option.bind_eq_some_iff.mp h
      obtain ⟨y, -, h⟩ := Option.bind_eq_some_iff.mp h
      obtain ⟨z, -, h⟩ := Option.bind_eq_some_iff.mp h
      split at h
      · cases h
      · obtain ⟨d, -, h⟩ := Option.bind_eq_some_iff.mp h
        cases h
        exact ⟨c.utf8Size_le_four, by simp⟩
    · cases h
  · cases h

/-- The bytes that a unit was read from, or fewer. -/
def unitBytes : Option Char → Nat
  | some c => c.utf8Size
  | none => 1

/-- **Units take no more bytes than they were read from.** -/
theorem sum_unitBytes_le (bytes : List UInt8) :
    ((unitsOfBytes bytes).map unitBytes).sum ≤ bytes.length := by
  fun_induction unitsOfBytes bytes with
  | case1 => exact Nat.le_refl _
  | case2 b rest c n hchar ih =>
    obtain ⟨hsize, hlength⟩ := charAt?_size hchar
    rw [List.length_drop] at ih
    simp only [List.map_cons, List.sum_cons, unitBytes, List.length_cons]
    omega
  | case3 b rest hstray ih =>
    simp only [List.map_cons, List.sum_cons, unitBytes, List.length_cons]
    omega

end Foreman.Text
