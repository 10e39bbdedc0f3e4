/-
Bytes and their URL-safe letters determine one another.

A letter stands for a value below sixty-four, and the values below sixty-four have
different letters.  Bytes are cut into such values, and values that were not cut from
bytes do not read: a last value with a bit beyond the last byte is refused.  So a text
has at most one reading and bytes have exactly one text.
-/
import Mathlib.Data.List.Basic
import Foreman.Text.Base64

namespace Foreman.Text.Base64

/-! ### Letters and their values -/

theorem value?_letter : ∀ n < 64, value? urlSafe (letter urlSafe n) = some n := by decide

theorem dot_ne_letter : ∀ n < 64, letter urlSafe n ≠ '.' := by decide

theorem pad_ne_letter : ∀ n < 64, letter urlSafe n ≠ '=' := by decide

/-- The characters from `first` to `last`, counted from `base` on. -/
theorem ofNat_of_range (width base : Nat) {first last c : Char} {n : Nat}
    (hwidth : last.toNat = first.toNat + width) (hlow : first ≤ c) (hhigh : c ≤ last)
    (hn : c.toNat - first.toNat + base = n) :
    base ≤ n ∧ n ≤ base + width ∧ Char.ofNat (first.toNat + (n - base)) = c := by
  have hlow' : first.toNat ≤ c.toNat := hlow
  have hhigh' : c.toNat ≤ last.toNat := hhigh
  have hback : first.toNat + (n - base) = c.toNat := by omega
  exact ⟨by omega, by omega, by rw [hback, Char.ofNat_toNat]⟩

theorem letter_of_value? {c : Char} {n : Nat} (h : value? urlSafe c = some n) :
    n < 64 ∧ letter urlSafe n = c := by
  unfold value? at h
  split at h
  · rename_i hrange
    obtain ⟨-, hle, hback⟩ := ofNat_of_range 25 0 (by decide) hrange.1 hrange.2 (Option.some.inj h)
    refine ⟨by omega, ?_⟩
    rw [letter, if_pos (by omega)]
    exact hback
  · split at h
    · rename_i hrange
      obtain ⟨hge, hle, hback⟩ := ofNat_of_range 25 26 (by decide) hrange.1 hrange.2
        (Option.some.inj h)
      refine ⟨by omega, ?_⟩
      rw [letter, if_neg (by omega), if_pos (by omega)]
      exact hback
    · split at h
      · rename_i hrange
        obtain ⟨hge, hle, hback⟩ := ofNat_of_range 9 52 (by decide) hrange.1 hrange.2
          (Option.some.inj h)
        refine ⟨by omega, ?_⟩
        rw [letter, if_neg (by omega), if_neg (by omega), if_pos (by omega)]
        exact hback
      · split at h
        · rename_i hlast
          cases h
          exact ⟨by decide, hlast.symm⟩
        · split at h
          · rename_i hlast
            cases h
            exact ⟨by decide, hlast.symm⟩
          · cases h

/-- A text is read letter by letter. -/
theorem mapM_value?_eq_some_iff {s : List Char} {vs : List Nat} :
    s.mapM (value? urlSafe) = some vs ↔ s = vs.map (letter urlSafe) ∧ ∀ v ∈ vs, v < 64 := by
  induction s generalizing vs with
  | nil =>
      constructor
      · intro h
        cases h
        exact ⟨rfl, List.forall_mem_nil _⟩
      · rintro ⟨hnil, -⟩
        rw [List.map_eq_nil_iff.mp hnil.symm]
        rfl
  | cons c r ih =>
      rw [List.mapM_cons]
      constructor
      · intro h
        obtain ⟨v, hv, hrest⟩ := Option.bind_eq_some_iff.mp h
        obtain ⟨ws, hws, hcons⟩ := Option.bind_eq_some_iff.mp hrest
        cases hcons
        obtain ⟨hlt, hletter⟩ := letter_of_value? hv
        obtain ⟨hr, hbelow⟩ := ih.mp hws
        exact ⟨by rw [List.map_cons, hletter, hr], List.forall_mem_cons.mpr ⟨hlt, hbelow⟩⟩
      · rintro ⟨hs, hbelow⟩
        cases vs with
        | nil => cases hs
        | cons v ws =>
            obtain ⟨hlt, hbelow⟩ := List.forall_mem_cons.mp hbelow
            obtain ⟨rfl, hr⟩ := List.cons.inj hs
            rw [value?_letter v hlt, ih.mpr ⟨hr, hbelow⟩]
            rfl

/-! ### Bytes and their values -/

/-- The values whose letters are the URL-safe form of bytes. -/
def values : List UInt8 → List Nat
  | [] => []
  | [a] => [a.toNat / 4, a.toNat % 4 * 16]
  | [a, b] => [a.toNat / 4, a.toNat % 4 * 16 + b.toNat / 16, b.toNat % 16 * 4]
  | a :: b :: c :: r =>
    a.toNat / 4 :: (a.toNat % 4 * 16 + b.toNat / 16) :: (b.toNat % 16 * 4 + c.toNat / 64) ::
      c.toNat % 64 :: values r

theorem encode_eq_map (bytes : List UInt8) :
    encode urlSafe bytes = (values bytes).map (letter urlSafe) := by
  induction bytes using values.induct with
  | case1 => rfl
  | case2 a => rfl
  | case3 a b => rfl
  | case4 a b c r ih =>
      rw [encode, values, ih]
      rfl

theorem values_lt (bytes : List UInt8) : ∀ v ∈ values bytes, v < 64 := by
  induction bytes using values.induct with
  | case1 => exact List.forall_mem_nil _
  | case2 a =>
      have ha := a.toNat_lt
      simp only [values, List.forall_mem_cons]
      exact ⟨by omega, by omega, List.forall_mem_nil _⟩
  | case3 a b =>
      have ha := a.toNat_lt
      have hb := b.toNat_lt
      simp only [values, List.forall_mem_cons]
      exact ⟨by omega, by omega, by omega, List.forall_mem_nil _⟩
  | case4 a b c r ih =>
      have ha := a.toNat_lt
      have hb := b.toNat_lt
      have hc := c.toNat_lt
      simp only [values, List.forall_mem_cons]
      exact ⟨by omega, by omega, by omega, by omega, ih⟩

theorem ofNat_eq {a : UInt8} {n : Nat} (h : n = a.toNat) : UInt8.ofNat n = a := by
  rw [h, UInt8.ofNat_toNat]

theorem bytesOfValues_values (bytes : List UInt8) : bytesOfValues (values bytes) = some bytes := by
  induction bytes using values.induct with
  | case1 => rfl
  | case2 a =>
      rw [values, bytesOfValues, if_pos (by omega), ofNat_eq (a := a) (by omega)]
  | case3 a b =>
      have hb := b.toNat_lt
      rw [values, bytesOfValues, if_pos (by omega), ofNat_eq (a := a) (by omega),
        ofNat_eq (a := b) (by omega)]
  | case4 a b c r ih =>
      have hb := b.toNat_lt
      have hc := c.toNat_lt
      rw [values, bytesOfValues, ih, Option.map_some, ofNat_eq (a := a) (by omega),
        ofNat_eq (a := b) (by omega), ofNat_eq (a := c) (by omega)]

theorem toNat_ofNat_of_lt {n : Nat} (h : n < 256) : (UInt8.ofNat n).toNat = n :=
  UInt8.toNat_ofNat_of_lt h

/-- Values that read are the values of the bytes that they read as. -/
theorem values_of_bytesOfValues {vs : List Nat} {bytes : List UInt8} (hlt : ∀ v ∈ vs, v < 64)
    (h : bytesOfValues vs = some bytes) : vs = values bytes := by
  induction vs using bytesOfValues.induct generalizing bytes with
  | case1 =>
      cases h
      rfl
  | case2 a => cases h
  | case3 a b hb =>
      rw [bytesOfValues, if_pos hb] at h
      cases h
      simp only [List.forall_mem_cons] at hlt
      rw [values, toNat_ofNat_of_lt (by omega)]
      congr 2 <;> omega
  | case4 a b hb =>
      rw [bytesOfValues, if_neg hb] at h
      cases h
  | case5 a b c hc =>
      rw [bytesOfValues, if_pos hc] at h
      cases h
      simp only [List.forall_mem_cons] at hlt
      rw [values, toNat_ofNat_of_lt (by omega), toNat_ofNat_of_lt (by omega)]
      congr 3 <;> omega
  | case6 a b c hc =>
      rw [bytesOfValues, if_neg hc] at h
      cases h
  | case7 a b c d r ih =>
      rw [bytesOfValues] at h
      obtain ⟨rest, hrest, rfl⟩ := Option.map_eq_some_iff.mp h
      simp only [List.forall_mem_cons] at hlt
      rw [values, ← ih hlt.2.2.2.2 hrest, toNat_ofNat_of_lt (by omega),
        toNat_ofNat_of_lt (by omega), toNat_ofNat_of_lt (by omega)]
      congr 4 <;> omega

/-! ### Texts and bytes -/

/-- **A text reads as bytes exactly when it is their written form.** -/
theorem decode_eq_some_iff {s : List Char} {bytes : List UInt8} :
    decode s = some bytes ↔ s = encode urlSafe bytes := by
  rw [decode, encode_eq_map, Option.bind_eq_some_iff]
  constructor
  · rintro ⟨vs, hvs, hread⟩
    obtain ⟨hs, hlt⟩ := mapM_value?_eq_some_iff.mp hvs
    rw [hs, values_of_bytesOfValues hlt hread]
  · intro hs
    exact ⟨values bytes, mapM_value?_eq_some_iff.mpr ⟨hs, values_lt bytes⟩,
      bytesOfValues_values bytes⟩

theorem decode_encode (bytes : List UInt8) : decode (encode urlSafe bytes) = some bytes :=
  decode_eq_some_iff.mpr rfl

/-- What holds of every letter holds of every character of a text. -/
theorem all_encode {p : Char → Bool} (hp : ∀ n < 64, p (letter urlSafe n) = true)
    (bytes : List UInt8) : (encode urlSafe bytes).all p = true := by
  rw [encode_eq_map, List.all_map, List.all_eq_true]
  exact fun v hv => hp v (values_lt bytes v hv)

theorem not_mem_encode {c : Char} (hc : ∀ n < 64, letter urlSafe n ≠ c) (bytes : List UInt8) :
    c ∉ encode urlSafe bytes := by
  intro hmem
  have hall : (encode urlSafe bytes).all (fun d => decide (d ≠ c)) = true :=
    all_encode (fun n hn => decide_eq_true (hc n hn)) bytes
  exact of_decide_eq_true (List.all_eq_true.mp hall c hmem) rfl

end Foreman.Text.Base64
