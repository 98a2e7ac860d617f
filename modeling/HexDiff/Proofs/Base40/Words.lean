import HexDiff.Base40

/-!
# Words and their digits

A word is three digits and two bytes.  Bytes are lost neither on the way into a word nor on the way
out of it (`Base40.wordBytes_wordOfBytes`, `Base40.wordOfBytes_wordBytes`).  Digits are lost by
words that no three digits make: a word above the largest one unpacks like its remainder
(`Base40.pack_unpack`), and below it nothing is lost either (`Base40.unpack_pack`).
-/

namespace HexDiff
namespace Base40

/-- The words of a byte sequence; an odd byte at the end is left out. -/
def words : List UInt8 → List UInt16
  | lo :: hi :: rest => wordOfBytes lo hi :: words rest
  | _ => []

/-! ### Digits -/

/-- The value of a word with one more digit, if sixteen bits can hold it. -/
theorem toNat_extend {w : UInt16} {v : Digit} (h : w.toNat * 40 + v < 65536) :
    (extend w v).toNat = w.toNat * 40 + v := by
  simp only [extend, UInt16.toNat_add, UInt16.toNat_mul, UInt16.toNat_ofNat', UInt16.reduceToNat]
  omega

/-- A first digit does not overflow. -/
theorem toNat_extend_zero (v : Digit) : (extend 0 v).toNat = v := by
  rw [toNat_extend, UInt16.toNat_zero, Nat.zero_mul, Nat.zero_add]
  rw [UInt16.toNat_zero]
  omega

/-- A second digit does not overflow. -/
theorem toNat_extend_extend (v₁ v₂ : Digit) :
    (extend (extend 0 v₁) v₂).toNat = v₁ * 40 + v₂ := by
  rw [toNat_extend, toNat_extend_zero]
  rw [toNat_extend_zero]
  omega

/-- Packing three digits does not overflow. -/
theorem toNat_pack (v₁ v₂ v₃ : Digit) : (pack v₁ v₂ v₃).toNat = (v₁ * 40 + v₂) * 40 + v₃ := by
  rw [pack, toNat_extend, toNat_extend_extend]
  rw [toNat_extend_extend]
  omega

/-- Three digits come back from their word. -/
theorem unpack_pack (v₁ v₂ v₃ : Digit) : unpack (pack v₁ v₂ v₃) = (v₁, v₂, v₃) := by
  have h₁ := v₁.isLt
  have h₂ := v₂.isLt
  have h₃ := v₃.isLt
  simp only [unpack, toNat_pack, Prod.mk.injEq, Fin.ext_iff, Fin.val_ofNat]
  omega

/-- A word comes back from its digits, less what it has above `maxWord`. -/
theorem pack_unpack (w : UInt16) :
    pack (unpack w).1 (unpack w).2.1 (unpack w).2.2 = w % 64000 := by
  have hw := w.toNat_lt
  apply UInt16.toNat_inj.mp
  rw [toNat_pack, UInt16.toNat_mod]
  simp only [unpack, Fin.val_ofNat, UInt16.reduceToNat]
  omega

/-- Three digits never make a word above the largest one. -/
theorem pack_le_maxWord (v₁ v₂ v₃ : Digit) : pack v₁ v₂ v₃ ≤ maxWord := by
  have hmax : maxWord.toNat = 63999 := rfl
  rw [UInt16.le_iff_toNat_le, toNat_pack, hmax]
  omega

/-- The words that have nothing above `maxWord`. -/
theorem mod_eq_self_iff {w : UInt16} : w % 64000 = w ↔ w ≤ maxWord := by
  have hmax : maxWord.toNat = 63999 := rfl
  rw [← UInt16.toNat_inj, UInt16.toNat_mod, UInt16.le_iff_toNat_le, hmax]
  simp only [UInt16.reduceToNat]
  omega

/-! ### Bytes -/

/-- The value of a word in terms of its bytes. -/
theorem toNat_wordOfBytes (lo hi : UInt8) :
    (wordOfBytes lo hi).toNat = hi.toNat * 256 + lo.toNat := by
  have hlo := lo.toNat_lt
  have hhi := hi.toNat_lt
  simp only [wordOfBytes, UInt16.toNat_add, UInt16.toNat_mul, UInt8.toNat_toUInt16,
    UInt16.reduceToNat]
  omega

/-- The value of the high byte of a word. -/
theorem toNat_highByte (w : UInt16) : (w >>> 8).toUInt8.toNat = w.toNat / 256 := by
  have hw := w.toNat_lt
  have hshift : (w >>> 8).toNat = w.toNat / 256 := by
    rw [UInt16.toNat_shiftRight, Nat.shiftRight_eq_div_pow]
    rfl
  rw [UInt16.toNat_toUInt8, hshift]
  omega

/-- Two bytes come back from their word. -/
theorem wordBytes_wordOfBytes (lo hi : UInt8) : wordBytes (wordOfBytes lo hi) = [lo, hi] := by
  have hlo := lo.toNat_lt
  have hlow : (wordOfBytes lo hi).toUInt8 = lo := by
    apply UInt8.toNat_inj.mp
    rw [UInt16.toNat_toUInt8, toNat_wordOfBytes]
    omega
  have hhigh : (wordOfBytes lo hi >>> 8).toUInt8 = hi := by
    apply UInt8.toNat_inj.mp
    rw [toNat_highByte, toNat_wordOfBytes]
    omega
  rw [wordBytes, hlow, hhigh]

/-- A word comes back from its bytes. -/
theorem wordOfBytes_wordBytes (w : UInt16) : wordOfBytes w.toUInt8 (w >>> 8).toUInt8 = w := by
  have hw := w.toNat_lt
  apply UInt16.toNat_inj.mp
  rw [toNat_wordOfBytes, toNat_highByte, UInt16.toNat_toUInt8]
  omega

/-- A word takes the bytes of a unit. -/
theorem length_wordBytes (w : UInt16) : (wordBytes w).length = bytesPerUnit := rfl

/-- The bytes of a word are one word. -/
theorem words_wordBytes (w : UInt16) : words (wordBytes w) = [w] := by
  rw [wordBytes, words, wordOfBytes_wordBytes]
  rfl

end Base40
end HexDiff
