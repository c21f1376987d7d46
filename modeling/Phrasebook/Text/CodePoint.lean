/-!
# Code points

A code point is a number below `0x110000`. It stands for a character, except for the numbers that
are kept for writing a character in two halves: a half that is left alone stands for nothing, yet a
text may hold it.
-/

namespace Phrasebook

inductive CodePoint where
  | char (c : Char)
  /-- One of the halves of pairs, by its place among them. -/
  | half (place : Fin 0x800)
  deriving DecidableEq, Repr

export CodePoint (char)

attribute [coe] CodePoint.char

instance : Coe Char CodePoint := ⟨.char⟩

namespace CodePoint

def toNat : CodePoint → Nat
  | char c => c.toNat
  | half place => 0xD800 + place

/-- The code point of a number. Numbers that are too large give the character of the number zero. -/
def ofNat (n : Nat) : CodePoint :=
  if h : 0xD800 ≤ n ∧ n < 0xE000 then half ⟨n - 0xD800, by omega⟩ else char (Char.ofNat n)

theorem toNat_char_lt_or_le (c : Char) : c.toNat < 0xD800 ∨ 0xE000 ≤ c.toNat := by
  have := c.valid
  simp only [UInt32.isValidChar, Nat.isValidChar] at this
  rw [Char.toNat]
  omega

theorem toNat_lt (c : CodePoint) : c.toNat < 0x110000 := by
  cases c with
  | char c =>
    have := c.valid
    simp only [UInt32.isValidChar, Nat.isValidChar] at this
    rw [toNat, Char.toNat]
    omega
  | half place =>
    have := place.isLt
    rw [toNat]
    omega

@[simp]
theorem ofNat_toNat (c : CodePoint) : ofNat c.toNat = c := by
  cases c with
  | char c =>
    have := toNat_char_lt_or_le c
    rw [ofNat, toNat, dif_neg (by omega), Char.ofNat_toNat]
  | half place =>
    rw [ofNat, dif_pos ⟨by simp [toNat], by have := place.isLt; simp only [toNat]; omega⟩]
    simp [toNat]

theorem toNat_inj {c d : CodePoint} (h : c.toNat = d.toNat) : c = d := by
  rw [← ofNat_toNat c, h, ofNat_toNat]

instance : LT CodePoint := ⟨fun c d => c.toNat < d.toNat⟩

instance : LE CodePoint := ⟨fun c d => c.toNat ≤ d.toNat⟩

instance : DecidableLT CodePoint := fun c d => inferInstanceAs (Decidable (c.toNat < d.toNat))

instance : DecidableLE CodePoint := fun c d => inferInstanceAs (Decidable (c.toNat ≤ d.toNat))

end CodePoint

end Phrasebook
