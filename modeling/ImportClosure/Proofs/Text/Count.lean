import ImportClosure.Text.Utf8
import Mathlib.Data.Finset.Card
import Mathlib.Data.Set.Finite.Basic
import Mathlib.Order.Interval.Finset.Nat

/-!
# `ImportClosure.Proofs.Text.Count`: there are finitely many short texts

No two texts have the same bytes (`encode_injective`), so the texts with fewer than `n` bytes
are at most as many as the numbers below `256 ^ n`: `card_shortTexts_le`. The searches of the
resolver end within a number of steps because the paths that they meet are among these texts.
-/

set_option autoImplicit false

namespace ImportClosure.Text

/-- The number of a character is below the Unicode limit. -/
theorem toNat_lt (c : Char) : c.toNat < 0x110000 := by
  have h := c.valid
  simp only [UInt32.isValidChar, Nat.isValidChar] at h
  show c.val.toNat < _
  omega

/-- The bytes of a character tell it from every other, whatever follows them. -/
theorem encodeChar_append_inj {c d : Char} {s t : List UInt8}
    (h : encodeChar c ++ s = encodeChar d ++ t) : c = d ∧ s = t := by
  have hc := toNat_lt c
  have hd := toNat_lt d
  suffices hs : c.toNat = d.toNat ∧ s = t from ⟨Char.toNat_inj.mp hs.1, hs.2⟩
  -- The first byte tells the number of bytes, and the bytes together the number.
  simp only [encodeChar] at h
  split_ifs at h <;>
    simp only [List.cons_append, List.nil_append, List.cons.injEq, byte, ← UInt8.toNat_inj,
      UInt8.toNat_ofNat'] at h <;> grind

/-- A character has some bytes. -/
theorem encodeChar_ne_nil (c : Char) : encodeChar c ≠ [] := by
  simp only [encodeChar]
  split_ifs <;> simp

/-- No two texts have the same bytes. -/
theorem encode_injective : Function.Injective encode := by
  intro s
  induction s with
  | nil =>
      intro t h
      cases t with
      | nil => rfl
      | cons d t =>
          -- `encode` of a nonempty text begins with the bytes of a character.
          have hbytes : encodeChar d ++ encode t = [] := h.symm
          exact absurd (List.append_eq_nil_iff.mp hbytes).1 (encodeChar_ne_nil d)
  | cons c s ih =>
      intro t h
      cases t with
      | nil =>
          have hbytes : encodeChar c ++ encode s = [] := h
          exact absurd (List.append_eq_nil_iff.mp hbytes).1 (encodeChar_ne_nil c)
      | cons d t =>
          have hbytes : encodeChar c ++ encode s = encodeChar d ++ encode t := h
          obtain ⟨hchar, hrest⟩ := encodeChar_append_inj hbytes
          rw [hchar, ih hrest]

/-- The number that bytes stand for, the last one first, with a one in front. -/
def bytesNumber : List UInt8 → Nat
  | [] => 1
  | b :: rest => b.toNat + 256 * bytesNumber rest

/-- Bytes stand for a number with one digit to base 256 more than there are bytes. -/
theorem bytesNumber_lt (bytes : List UInt8) : bytesNumber bytes < 256 ^ (bytes.length + 1) := by
  induction bytes with
  | nil => decide
  | cons b rest ih =>
      have hb := b.toNat_lt
      rw [bytesNumber, List.length_cons, Nat.pow_succ']
      omega

/-- No bytes stand for zero. -/
theorem bytesNumber_pos (bytes : List UInt8) : 0 < bytesNumber bytes := by
  induction bytes with
  | nil => decide
  | cons b rest ih =>
      rw [bytesNumber]
      omega

/-- Different bytes stand for different numbers. -/
theorem bytesNumber_injective : Function.Injective bytesNumber := by
  intro s
  induction s with
  | nil =>
      intro t h
      cases t with
      | nil => rfl
      | cons b t =>
          have hpos := bytesNumber_pos t
          simp only [bytesNumber] at h
          omega
  | cons a s ih =>
      intro t h
      cases t with
      | nil =>
          have hpos := bytesNumber_pos s
          simp only [bytesNumber] at h
          omega
      | cons b t =>
          -- The first byte is the remainder of the number, and the rest the quotient.
          have ha := a.toNat_lt
          have hb := b.toNat_lt
          simp only [bytesNumber] at h
          have hbyte : a = b := UInt8.toNat_inj.mp (by omega)
          have hrest : s = t := ih (by omega)
          rw [hbyte, hrest]

/-- Different texts have different numbers. -/
theorem bytesNumber_encode_injective :
    Function.Injective fun text : Text => bytesNumber (encode text) :=
  bytesNumber_injective.comp encode_injective

/-- The number of a text with fewer than `n` bytes. -/
theorem bytesNumber_encode_lt {n : Nat} {text : Text} (h : byteLength text < n) :
    bytesNumber (encode text) < 256 ^ n :=
  Nat.lt_of_lt_of_le (bytesNumber_lt _) (Nat.pow_le_pow_right (by omega) h)

/-- There are finitely many texts with fewer than `n` bytes. -/
theorem finite_byteLength_lt (n : Nat) : {t : Text | byteLength t < n}.Finite := by
  have hmaps : Set.MapsTo (fun t => bytesNumber (encode t)) {t : Text | byteLength t < n}
      (Set.Iio (256 ^ n)) := fun t ht => bytesNumber_encode_lt ht
  exact Set.Finite.of_injOn hmaps bytesNumber_encode_injective.injOn (Set.finite_Iio _)

/-- The texts with fewer than `n` bytes. -/
noncomputable def shortTexts (n : Nat) : Finset Text := (finite_byteLength_lt n).toFinset

@[simp] theorem mem_shortTexts (n : Nat) (text : Text) :
    text ∈ shortTexts n ↔ byteLength text < n := by
  simp [shortTexts]

/-- There are at most `256 ^ n` texts with fewer than `n` bytes. -/
theorem card_shortTexts_le (n : Nat) : (shortTexts n).card ≤ 256 ^ n := by
  rw [← Finset.card_range (256 ^ n)]
  refine Finset.card_le_card_of_injOn (fun t => bytesNumber (encode t)) (fun t ht => ?_)
    bytesNumber_encode_injective.injOn
  have hlt := (mem_shortTexts n t).mp (Finset.mem_coe.mp ht)
  exact Finset.mem_coe.mpr (Finset.mem_range.mpr (bytesNumber_encode_lt hlt))

end ImportClosure.Text
