import HexDiff.Proofs.HexBytes

/-!
# Printed bytes read back

Bytes are printed in two ways: in capitals with a blank behind each byte, and in small letters
without any blanks.  Both write a byte as two digits with its value (`HexBytes.WritesByte`), and
reading is about the digits only.  So what is printed is read as the bytes it was printed from,
also after it has been cut into pieces, in the middle of a byte as well (`HexBytes.read_printed`).

No digit is lost or added on the way.  A blank is dropped wherever it stands, and there is never an
odd number of digits, so that no zero is put in front.
-/

namespace HexDiff

/-- A small digit reads back as its value. -/
@[simp] theorem Hex.digitValue?_lowerDigit {n : Nat} (h : n < 16) :
    digitValue? (lowerDigit n) = some n := by
  have hall : ∀ n < 16, digitValue? (lowerDigit n) = some n := by decide
  exact hall n h

namespace HexBytes

/-! ### Bytes as two digits -/

/-- A way to write each byte as two digits with its value. -/
def WritesByte (digits : UInt8 → List Char) : Prop :=
  ∀ b : UInt8, ∃ high low, digits b = [high, low] ∧
    Hex.digitValue? high = some (b.toNat / 16) ∧ Hex.digitValue? low = some (b.toNat % 16)

/-- Two capital digits are such a way. -/
theorem writesByte_ofByte : WritesByte Hex.ofByte := by
  intro b
  have hb := b.toNat_lt
  exact ⟨_, _, rfl, Hex.digitValue?_upperDigit (by omega), Hex.digitValue?_upperDigit (by omega)⟩

/-- Two small digits are another one. -/
theorem writesByte_ofByteLower : WritesByte Hex.ofByteLower := by
  intro b
  have hb := b.toNat_lt
  exact ⟨_, _, rfl, Hex.digitValue?_lowerDigit (by omega), Hex.digitValue?_lowerDigit (by omega)⟩

/-- Two digits with the value of a byte make this byte. -/
theorem ofNat_value_pair {b : UInt8} {high low : Char}
    (hhigh : Hex.digitValue? high = some (b.toNat / 16))
    (hlow : Hex.digitValue? low = some (b.toNat % 16)) :
    UInt8.ofNat (Hex.value [high, low]) = b := by
  have hvalue : Hex.value [high, low] = 16 * (b.toNat / 16) + b.toNat % 16 := by
    simp only [Hex.value, List.foldl_cons, List.foldl_nil, hhigh, hlow, Option.getD_some,
      Nat.mul_zero, Nat.zero_add]
  rw [hvalue, Nat.div_add_mod, UInt8.ofNat_toNat]

namespace WritesByte

variable {digits : UInt8 → List Char} (h : WritesByte digits)
include h

/-- What is written are digits. -/
theorem isHexDigit {b : UInt8} {c : Char} (hc : c ∈ digits b) : c.isHexDigit := by
  obtain ⟨high, low, hdigits, hhigh, hlow⟩ := h b
  rw [hdigits] at hc
  rw [← Hex.isSome_digitValue?_eq]
  rcases List.mem_pair.mp hc with rfl | rfl
  · rw [hhigh]
    rfl
  · rw [hlow]
    rfl

/-- There are two digits for each byte. -/
theorem length_flatMap (bytes : List UInt8) :
    (bytes.flatMap digits).length = 2 * bytes.length := by
  induction bytes with
  | nil => rfl
  | cons b bytes ih =>
    obtain ⟨high, low, hdigits, -⟩ := h b
    rw [List.flatMap_cons, hdigits, List.length_append, ih, List.length_cons]
    exact Nat.add_comm 2 _

/-- The pairs of the digits are the bytes. -/
theorem pairBytes_flatMap (bytes : List UInt8) : pairBytes (bytes.flatMap digits) = bytes := by
  induction bytes with
  | nil => rfl
  | cons b bytes ih =>
    obtain ⟨high, low, hdigits, hhigh, hlow⟩ := h b
    rw [List.flatMap_cons, hdigits, List.cons_append, List.cons_append, List.nil_append, pairBytes,
      ofNat_value_pair hhigh hlow, ih]

/-- Blanks behind the digits of each byte are dropped, and nothing else is. -/
theorem filter_flatMap {blanks : List Char} (hblanks : ∀ c ∈ blanks, isBlank c)
    (bytes : List UInt8) :
    (bytes.flatMap fun b => digits b ++ blanks).filter (fun c => !isBlank c) =
      bytes.flatMap digits := by
  have hdropped : blanks.filter (fun c => !isBlank c) = [] := by
    rw [List.filter_eq_nil_iff]
    intro c hc
    simp [hblanks c hc]
  have hkept : ∀ b, (digits b).filter (fun c => !isBlank c) = digits b := by
    intro b
    rw [List.filter_eq_self]
    intro c hc
    simp [Hex.isBlank_of_isHexDigit (h.isHexDigit hc)]
  rw [List.filter_flatMap]
  refine List.flatMap_congr fun b _ => ?_
  rw [List.filter_append, hkept, hdropped, List.append_nil]

/-- Pieces whose digits are those of some bytes are read as these bytes. -/
theorem read_eq {pieces : List String} {bytes : List UInt8}
    (hjoin : join pieces = bytes.flatMap digits) : read pieces = .ok bytes := by
  have heven : evened (bytes.flatMap digits) = bytes.flatMap digits := by
    refine if_neg ?_
    rw [h.length_flatMap]
    omega
  rw [read_eq_ok_iff, hjoin, heven]
  refine ⟨?_, (h.pairBytes_flatMap bytes).symm⟩
  intro i c hc
  obtain ⟨b, -, hmem⟩ := List.mem_flatMap.mp (List.mem_of_getElem? hc)
  exact Or.inl (h.isHexDigit hmem)

end WritesByte

/-! ### Pieces of a printed text -/

/-- The digits of some pieces are those of the text that the pieces make. -/
theorem join_eq (pieces : List String) :
    join pieces = (String.join pieces).toList.filter fun c => !isBlank c := by
  rw [String.toList_join]
  rfl

/-- **Printed bytes read back.**  Print any bytes, in capitals with a blank behind each byte or in
small letters without blanks, and cut the text into any pieces.  The pieces are read, and as these
bytes. -/
theorem read_printed (bytes : List UInt8) (pieces : List String)
    (h : String.join pieces = Hex.spaced bytes ∨ String.join pieces = Hex.digest bytes) :
    read pieces = .ok bytes := by
  rcases h with h | h
  · refine writesByte_ofByte.read_eq ?_
    have hblank : ∀ c ∈ [' '], isBlank c := List.forall_mem_singleton.mpr (by decide)
    rw [join_eq, h, Hex.spaced, String.toList_ofList, writesByte_ofByte.filter_flatMap hblank]
  · refine writesByte_ofByteLower.read_eq ?_
    have hnone : ∀ c ∈ ([] : List Char), isBlank c := fun _ hc => absurd hc List.not_mem_nil
    have hfilter := writesByte_ofByteLower.filter_flatMap hnone bytes
    simp only [List.append_nil] at hfilter
    rw [join_eq, h, Hex.digest, String.toList_ofList, hfilter]

/-- Three bytes in either form, the first of them below sixteen.  Each text is cut within bytes, and
an empty piece is among the pieces. -/
theorem read_printed_cut :
    String.join ["0", "5 F", "", "F 9", "F "] = Hex.spaced [0x05, 0xFF, 0x9F] ∧
      read ["0", "5 F", "", "F 9", "F "] = .ok [0x05, 0xFF, 0x9F] ∧
      String.join ["05f", "f9", "", "f"] = Hex.digest [0x05, 0xFF, 0x9F] ∧
      read ["05f", "f9", "", "f"] = .ok [0x05, 0xFF, 0x9F] := by
  have hspaced : String.join ["0", "5 F", "", "F 9", "F "] = Hex.spaced [0x05, 0xFF, 0x9F] := by
    decide
  have hdigest : String.join ["05f", "f9", "", "f"] = Hex.digest [0x05, 0xFF, 0x9F] := by decide
  exact ⟨hspaced, read_printed _ _ (Or.inl hspaced), hdigest, read_printed _ _ (Or.inr hdigest)⟩

end HexBytes
end HexDiff
