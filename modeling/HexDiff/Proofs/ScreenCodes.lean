import HexDiff.Proofs.Chains
import HexDiff.ScreenCode
import Mathlib.Data.List.Basic
import Mathlib.Tactic.Push

/-!
# Screen codes there and back

Which codes show a character and which characters have a code is said in two places, by ranges with
holes in them.  They fit together: a character has a code exactly if some code shows it, and then
this code is the only one (`ScreenCode.encodeChar_eq_ok_iff`).  The one exception is the
placeholder, which many codes show and which has no code itself.

So a text that can be encoded comes back, and bytes come back if none of them shows the placeholder.
In all other cases encoding stops, at the first character without a code or at the first placeholder
(`ScreenCode.there_and_back`).
-/

namespace HexDiff

/-- A character for each byte, one after the other behind a text. -/
theorem foldl_push (f : UInt8 → Char) (text : String) (bytes : List UInt8) :
    bytes.foldl (fun text b => text.push (f b)) text = text ++ String.ofList (bytes.map f) := by
  induction bytes generalizing text with
  | nil => exact String.append_empty.symm
  | cons b bytes ih =>
    rw [List.foldl_cons, ih, ← String.toList_inj]
    simp

namespace ScreenCode

/-! ### Characters and codes -/

/-- The characters that have a code. -/
def HasCode (c : Char) : Prop :=
  (' ' ≤ c ∧ c ≤ '?') ∨ ('@' ≤ c ∧ c ≤ '[') ∨ c = ']'

instance (c : Char) : Decidable (HasCode c) :=
  inferInstanceAs (Decidable (_ ∨ _))

/-- The codes that have a text form. -/
def HasText (b : UInt8) : Prop :=
  b < 0x40 ∧ b ≠ 0x1C ∧ b ≠ 0x1E ∧ b ≠ 0x1F

/-- The characters that have a code by their numbers: two ranges that meet, and one character. -/
theorem hasCode_iff_toNat (c : Char) :
    HasCode c ↔ (32 ≤ c.toNat ∧ c.toNat ≤ 91) ∨ c.toNat = 93 := by
  have hbracket : c = ']' ↔ c.toNat = 93 := Char.toNat_inj.symm
  simp only [HasCode, Char.le_def, UInt32.le_iff_toNat_le, Char.toNat_val, hbracket]
  have hspace : ' '.toNat = 32 ∧ '?'.toNat = 63 ∧ '@'.toNat = 64 ∧ '['.toNat = 91 := by decide
  omega

/-- The codes that have a text form by their numbers. -/
theorem hasText_iff_toNat (b : UInt8) :
    HasText b ↔ b.toNat < 64 ∧ b.toNat ≠ 28 ∧ b.toNat ≠ 30 ∧ b.toNat ≠ 31 := by
  simp only [HasText, UInt8.lt_iff_toNat_lt, ne_eq, ← UInt8.toNat_inj, UInt8.reduceToNat]

/-- The codes with a glyph of their own by their numbers. -/
theorem hasOwnGlyph_iff_toNat (b : UInt8) :
    hasOwnGlyph b = true ↔ b.toNat = 28 ∨ b.toNat = 30 ∨ b.toNat = 31 := by
  simp only [hasOwnGlyph, Bool.or_eq_true, beq_iff_eq, ← UInt8.toNat_inj, UInt8.reduceToNat,
    or_assoc]

/-- A code without a text form shows the placeholder. -/
theorem decodeByte_of_not_hasText {b : UInt8} (h : ¬HasText b) : decodeByte b = placeholder := by
  rw [hasText_iff_toNat] at h
  unfold decodeByte
  split
  · rfl
  · next hglyph =>
    rw [hasOwnGlyph_iff_toNat] at hglyph
    have hhigh : ¬b < 0x20 ∧ ¬b < 0x40 := by
      simp only [UInt8.lt_iff_toNat_lt, UInt8.reduceToNat]
      omega
    rw [if_neg hhigh.1, if_neg hhigh.2]

/-- The number of the character that a code with a text form shows. -/
theorem toNat_decodeByte {b : UInt8} (h : HasText b) :
    (decodeByte b).toNat = if b.toNat < 32 then 64 + b.toNat else b.toNat := by
  have hnumber : ∀ n < 128, (Char.ofNat n).toNat = n := by decide
  rw [hasText_iff_toNat] at h
  have hglyph : ¬hasOwnGlyph b = true := by
    rw [hasOwnGlyph_iff_toNat]
    omega
  have hmiddle : b < 0x40 := UInt8.lt_iff_toNat_lt.mpr h.1
  rw [decodeByte, if_neg hglyph, if_pos hmiddle]
  simp only [UInt8.lt_iff_toNat_lt, UInt8.reduceToNat]
  split
  · exact hnumber _ (by omega)
  · exact hnumber _ (by omega)

/-- Exactly the codes with a text form show something else than the placeholder. -/
theorem decodeByte_ne_placeholder_iff (b : UInt8) : decodeByte b ≠ placeholder ↔ HasText b := by
  constructor
  · intro h
    by_contra hnot
    exact h (decodeByte_of_not_hasText hnot)
  · intro h heq
    have hnumber := toNat_decodeByte h
    rw [hasText_iff_toNat] at h
    have hplaceholder : placeholder.toNat = 126 := rfl
    rw [heq, hplaceholder] at hnumber
    split at hnumber
    · omega
    · omega

/-- A character without a code is refused. -/
theorem encodeChar_of_not_hasCode {c : Char} (h : ¬HasCode c) : encodeChar c = .error ⟨c⟩ := by
  unfold HasCode at h
  rw [encodeChar, if_neg fun hlow => h (Or.inr hlow), if_neg fun hhigh => h (Or.inl hhigh)]

/-- The code of a character is its number, less what the letters have above theirs. -/
theorem encodeChar_of_hasCode {c : Char} (h : HasCode c) :
    encodeChar c = .ok (UInt8.ofNat (if 64 ≤ c.toNat then c.toNat - 64 else c.toNat)) := by
  have hspace : ' '.toNat = 32 ∧ '?'.toNat = 63 ∧ '@'.toNat = 64 ∧ '['.toNat = 91 := by decide
  have hrange : ∀ d e : Char, (d ≤ c ∧ c ≤ e) ↔ d.toNat ≤ c.toNat ∧ c.toNat ≤ e.toNat := by
    intro d e
    simp only [Char.le_def, UInt32.le_iff_toNat_le, Char.toNat_val]
  have hbracket : c = ']' ↔ c.toNat = 93 := Char.toNat_inj.symm
  rw [hasCode_iff_toNat] at h
  unfold encodeChar
  simp only [hrange, hbracket]
  split
  · rw [if_pos (by omega)]
  · rw [if_pos (by omega), if_neg (by omega)]

/-- A character is encoded as a code exactly if this code has a text form and shows it. -/
theorem encodeChar_eq_ok_iff {c : Char} {b : UInt8} :
    encodeChar c = .ok b ↔ HasText b ∧ decodeByte b = c := by
  constructor
  · intro h
    by_cases hcode : HasCode c
    · rw [encodeChar_of_hasCode hcode, Except.ok.injEq] at h
      rw [hasCode_iff_toNat] at hcode
      have hnumber : b.toNat = if 64 ≤ c.toNat then c.toNat - 64 else c.toNat := by
        rw [← h, UInt8.toNat_ofNat']
        split <;> omega
      have htext : HasText b := by
        rw [hasText_iff_toNat, hnumber]
        split <;> omega
      refine ⟨htext, Char.toNat_inj.mp ?_⟩
      rw [toNat_decodeByte htext, hnumber]
      split <;> split <;> omega
    · rw [encodeChar_of_not_hasCode hcode] at h
      cases h
  · rintro ⟨htext, rfl⟩
    have hnumber := toNat_decodeByte htext
    rw [hasText_iff_toNat] at htext
    have hcode : HasCode (decodeByte b) := by
      rw [hasCode_iff_toNat, hnumber]
      split <;> omega
    have hsame : (if 64 ≤ (decodeByte b).toNat then (decodeByte b).toNat - 64
        else (decodeByte b).toNat) = b.toNat := by
      rw [hnumber]
      split <;> split <;> omega
    rw [encodeChar_of_hasCode hcode, hsame, UInt8.ofNat_toNat]

/-- The characters that have a code are encoded. -/
theorem exists_encodeChar_eq {c : Char} (h : HasCode c) : ∃ b, encodeChar c = .ok b :=
  ⟨_, encodeChar_of_hasCode h⟩

/-- The placeholder has no code. -/
theorem not_hasCode_placeholder : ¬HasCode placeholder := by
  decide

/-! ### Whole texts -/

/-- Codes decoded onto a text are decoded by themselves. -/
theorem decodeOnto_eq (text : String) (bytes : List UInt8) :
    decodeOnto text bytes = text ++ decode bytes :=
  foldl_push decodeByte text bytes

/-- What encodes to some codes is what they show. -/
theorem decode_of_encode {text : String} {bytes : List UInt8} (h : encode text = .ok bytes) :
    decode bytes = text := by
  have hchar : ∀ {c : Char} {b : UInt8}, encodeChar c = .ok b → id c = decodeByte b :=
    fun h => (encodeChar_eq_ok_iff.mp h).2.symm
  have hsame := map_eq_map_of_mapM hchar h
  rw [List.map_id] at hsame
  rw [decode, decodeChars, ← hsame, String.ofList_toList]

/-- A text stops encoding at its first character without a code. -/
theorem encode_eq_error_iff (text : String) (e : Error) :
    encode text = .error e ↔
      text.toList.find? (fun c => decide (¬HasCode c)) = some e.character := by
  have hstops : ∀ c, text.toList.find? (fun c => decide (¬HasCode c)) = some c →
      encode text = .error ⟨c⟩ := by
    intro c hfind
    obtain ⟨hc, front, back, htext, hfront⟩ := List.find?_eq_some_iff_append.mp hfind
    have hcoded : ∀ c' ∈ front, ∃ b, encodeChar c' = .ok b := by
      intro c' hc'
      have hcode : HasCode c' := by simpa using hfront c' hc'
      exact exists_encodeChar_eq hcode
    rw [encode, htext, mapM_eq_error hcoded (encodeChar_of_not_hasCode (of_decide_eq_true hc))]
  constructor
  · intro h
    cases hfind : text.toList.find? (fun c => decide (¬HasCode c)) with
    | some c =>
      rw [hstops c hfind] at h
      rw [← Except.error.inj h]
    | none =>
      -- all characters have a code then
      have hcoded : ∀ c ∈ text.toList, ∃ b, encodeChar c = .ok b := by
        intro c hc
        have hcode : HasCode c := by simpa using List.find?_eq_none.mp hfind c hc
        exact exists_encodeChar_eq hcode
      obtain ⟨bytes, hbytes⟩ := exists_mapM_eq hcoded
      rw [encode, hbytes] at h
      cases h
  · exact hstops e.character

/-- What a code shows has a code exactly if it is no stand-in. -/
theorem hasCode_decodeByte_iff (b : UInt8) : HasCode (decodeByte b) ↔ HasText b := by
  constructor
  · intro hcode
    by_contra hnot
    rw [decodeByte_of_not_hasText hnot] at hcode
    exact not_hasCode_placeholder hcode
  · intro htext
    by_contra hnot
    have hback := encodeChar_eq_ok_iff.mpr ⟨htext, rfl⟩
    rw [encodeChar_of_not_hasCode hnot] at hback
    cases hback

/-- Codes with a text form come back from it. -/
theorem encode_decode_of_hasText {bytes : List UInt8} (h : ∀ b ∈ bytes, HasText b) :
    encode (decode bytes) = .ok bytes := by
  rw [encode, decode, String.toList_ofList, decodeChars]
  induction bytes with
  | nil => rfl
  | cons b bytes ih =>
    obtain ⟨hb, hbytes⟩ := List.forall_mem_cons.mp h
    rw [List.map_cons, List.mapM_cons, encodeChar_eq_ok_iff.mpr ⟨hb, rfl⟩, ih hbytes]
    rfl

/-- Encoding stops at a placeholder: of the characters that codes show, it is the only one without a
code. -/
theorem encode_decode_of_placeholder {bytes : List UInt8} {b : UInt8} (hmem : b ∈ bytes)
    (hb : decodeByte b = placeholder) : encode (decode bytes) = .error ⟨placeholder⟩ := by
  rw [encode_eq_error_iff, decode, String.toList_ofList, decodeChars]
  cases hfind : (bytes.map decodeByte).find? (fun c => decide (¬HasCode c)) with
  | none =>
    have hcode := List.find?_eq_none.mp hfind (decodeByte b) (List.mem_map_of_mem hmem)
    rw [hb] at hcode
    exact absurd (decide_eq_true not_hasCode_placeholder) hcode
  | some c =>
    obtain ⟨b', -, rfl⟩ := List.mem_map.mp (List.mem_of_find?_eq_some hfind)
    have hfound := List.find?_some hfind
    have hnot : ¬HasCode (decodeByte b') := of_decide_eq_true hfound
    rw [decodeByte_of_not_hasText fun htext => hnot ((hasCode_decodeByte_iff b').mpr htext)]

/-- **Screen codes there and back.**  A text that is encoded is what its codes decode to, and a text
that is not is refused for its first character outside the two ranges and the one character that
have codes.  Bytes decode to one character each, behind any text to the same ones as by themselves.
They come back from their text exactly if none of them shows the placeholder, and otherwise the text
is refused for a placeholder.  The bytes that do not show it are those below 64 without the three
that have a glyph of their own. -/
theorem there_and_back :
    (∀ text : String,
      (∀ bytes, encode text = .ok bytes → decode bytes = text) ∧
      ∀ e, encode text = .error e ↔
        text.toList.find? (fun c => decide (¬HasCode c)) = some e.character) ∧
    ∀ bytes : List UInt8,
      (decode bytes).length = bytes.length ∧
      (∀ text, decodeOnto text bytes = text ++ decode bytes) ∧
      (encode (decode bytes) = .ok bytes ↔ ∀ b ∈ bytes, decodeByte b ≠ '~') ∧
      (encode (decode bytes) = .error ⟨'~'⟩ ↔ ¬∀ b ∈ bytes, decodeByte b ≠ '~') ∧
      ∀ b, decodeByte b ≠ '~' ↔ b < 0x40 ∧ b ≠ 0x1C ∧ b ≠ 0x1E ∧ b ≠ 0x1F := by
  refine ⟨fun text => ⟨fun bytes => decode_of_encode, encode_eq_error_iff text⟩, fun bytes => ?_⟩
  have hcomes : (∀ b ∈ bytes, decodeByte b ≠ '~') → encode (decode bytes) = .ok bytes :=
    fun h => encode_decode_of_hasText fun b hb => (decodeByte_ne_placeholder_iff b).mp (h b hb)
  have hstops : (¬∀ b ∈ bytes, decodeByte b ≠ '~') → encode (decode bytes) = .error ⟨'~'⟩ := by
    intro h
    push Not at h
    obtain ⟨b, hmem, hb⟩ := h
    exact encode_decode_of_placeholder hmem hb
  refine ⟨?_, fun text => decodeOnto_eq text bytes, ⟨?_, hcomes⟩, ⟨?_, hstops⟩,
    decodeByte_ne_placeholder_iff⟩
  · rw [decode, String.length_ofList, decodeChars, List.length_map]
  · intro hok
    by_contra hnot
    rw [hstops hnot] at hok
    cases hok
  · intro herror hall
    rw [hcomes hall] at herror
    cases herror

/-- A text with characters from both ranges, one with a small letter, bytes that come back behind a
text, and bytes one of which has a glyph of its own. -/
theorem there_and_back_glyph :
    encode "[A]?" = .ok [0x1B, 0x01, 0x1D, 0x3F] ∧ decode [0x1B, 0x01, 0x1D, 0x3F] = "[A]?" ∧
      encode "Hi^" = .error ⟨'i'⟩ ∧
      decodeOnto "é>" [0x08, 0x09] = "é>" ++ decode [0x08, 0x09] ∧
      encode (decode [0x08, 0x1C, 0x80]) = .error ⟨'~'⟩ := by
  have hencode : encode "[A]?" = .ok [0x1B, 0x01, 0x1D, 0x3F] := by decide +kernel
  have hfind : "Hi^".toList.find? (fun c => decide (¬HasCode c)) = some 'i' := by decide +kernel
  have hglyph : ¬∀ b ∈ ([0x08, 0x1C, 0x80] : List UInt8), decodeByte b ≠ '~' := by decide
  obtain ⟨htexts, hcodes⟩ := there_and_back
  obtain ⟨-, honto, -⟩ := hcodes [0x08, 0x09]
  obtain ⟨-, -, -, hstops, -⟩ := hcodes [0x08, 0x1C, 0x80]
  exact ⟨hencode, (htexts "[A]?").1 _ hencode, ((htexts "Hi^").2 ⟨'i'⟩).mpr hfind, honto "é>",
    hstops.mpr hglyph⟩

end ScreenCode
end HexDiff
