import Mathlib.Data.List.FinRange
import HexDiff.Proofs.Base40.RoundTrip

/-!
# Which alphabets are codecs

An alphabet looks a character up among its aliases and then among its symbols, and takes the first
entry that it finds.  So a symbol may be encoded as a value that is not its own: if it stands
further in front as well, or if the aliases give it another value.  `Unambiguous` says of the parts
of an alphabet that neither of this happens.

An alphabet that keeps its symbols is a codec: what it decodes it encodes as the same bytes, and
what it encodes it decodes to the same symbols.  And it has to keep them, since a word made of one
digit three times over tells what becomes of this digit (`Alphabet.keepsSymbols_of_restores`).  So
the alphabets that are codecs can be told by their parts alone (`codec_iff_unambiguous`).
-/

namespace HexDiff
namespace Base40

/-- The parts of an alphabet give no symbol a value that is not its own: no symbol occurs twice, and
if a symbol is also an alias, the first entry for it has the position of the symbol. -/
structure Unambiguous (symbols : Vector Char 40) (aliases : List (Char × UInt8)) : Prop where
  distinct : symbols.toList.Nodup
  own_value : ∀ (v : Digit) (value : UInt8),
    aliases.lookup (symbols.get v) = some value → value.toNat = v

/-- Whether some parts are unambiguous can be found out symbol by symbol. -/
theorem unambiguous_iff {symbols : Vector Char 40} {aliases : List (Char × UInt8)} :
    Unambiguous symbols aliases ↔ symbols.toList.Nodup ∧
      ∀ v : Digit, (aliases.lookup (symbols.get v)).all (·.toNat == v.val) = true := by
  simp only [Option.all_eq_true, beq_iff_eq]
  exact ⟨fun h => ⟨h.distinct, h.own_value⟩, fun h => ⟨h.1, h.2⟩⟩

instance (symbols : Vector Char 40) (aliases : List (Char × UInt8)) :
    Decidable (Unambiguous symbols aliases) :=
  decidable_of_iff _ unambiguous_iff.symm

variable {α : Alphabet} {symbols : Vector Char 40} {aliases : List (Char × UInt8)}

/-! ### Alphabets and their parts -/

/-- An alias that is not refused keeps its character and its value. -/
theorem eq_of_digitOfAlias {entry : Char × UInt8} {checked : Char × Digit}
    (h : digitOfAlias entry = .ok checked) :
    checked.1 = entry.1 ∧ (checked.2 : Nat) = entry.2.toNat := by
  unfold digitOfAlias at h
  split at h
  · obtain rfl := Except.ok.inj h
    exact ⟨rfl, rfl⟩
  · cases h

/-- Looking a character up among checked aliases finds the value that was given for it. -/
theorem lookup_of_mapM_digitOfAlias {checked : List (Char × Digit)}
    (h : aliases.mapM digitOfAlias = .ok checked) (c : Char) :
    (checked.lookup c).map Fin.val = (aliases.lookup c).map UInt8.toNat := by
  induction aliases generalizing checked with
  | nil =>
    obtain rfl : [] = checked := Except.ok.inj h
    rfl
  | cons entry aliases ih =>
    rw [List.mapM_cons] at h
    obtain ⟨first, hfirst, h⟩ := bind_eq_ok_iff.mp h
    obtain ⟨rest, hrest, h⟩ := bind_eq_ok_iff.mp h
    obtain rfl : first :: rest = checked := Except.ok.inj h
    obtain ⟨hname, hvalue⟩ := eq_of_digitOfAlias hfirst
    have hmore := ih hrest
    rw [List.lookup_cons, List.lookup_cons, hname]
    -- the check keeps the order of the aliases, so both lookups stop at the same entry
    cases c == entry.1 with
    | true => exact congrArg some hvalue
    | false => exact hmore

/-- An alphabet has the symbols that it was built from, and finds the values of the aliases that it
was built from. -/
theorem Alphabet.parts_of_ofParts? (h : Alphabet.ofParts? symbols aliases = .ok α) :
    α.symbols = symbols ∧
      ∀ c, (α.aliases.lookup c).map Fin.val = (aliases.lookup c).map UInt8.toNat := by
  obtain ⟨checked, hchecked, h⟩ := bind_eq_ok_iff.mp h
  obtain rfl : Alphabet.mk symbols checked = α := Except.ok.inj h
  exact ⟨rfl, lookup_of_mapM_digitOfAlias hchecked⟩

/-! ### Keeping the symbols -/

namespace Alphabet

/-- A digit is a symbol, and each symbol belongs to some digit. -/
theorem exists_symbol_eq {c : Char} (h : c ∈ α.symbols) : ∃ v, α.symbol v = c := by
  obtain ⟨i, hi, hc⟩ := Vector.getElem_of_mem h
  exact ⟨⟨i, hi⟩, hc⟩

/-- The symbols are pairwise distinct exactly if no two digits share one. -/
theorem nodup_symbols_iff : α.symbols.toList.Nodup ↔ Function.Injective α.symbol := by
  have hlist : α.symbols.toList = List.ofFn α.symbol := by
    refine List.ext_getElem (by simp) fun i hi _ => ?_
    rw [Vector.getElem_toList, List.getElem_ofFn]
    rfl
  rw [hlist, List.nodup_ofFn]

/-- A character that is an alias has the value of its first entry. -/
theorem encodeChar_of_lookup {c : Char} {v : Digit} (h : α.aliases.lookup c = some v) :
    α.encodeChar c = .ok v := by
  rw [encodeChar, h]

/-- A symbol that is no alias has some value. -/
theorem exists_encodeChar_symbol {v : Digit} (h : α.aliases.lookup (α.symbol v) = none) :
    ∃ w, α.encodeChar (α.symbol v) = .ok w := by
  have hmem : α.symbol v ∈ α.symbols.toArray := Array.getElem_mem _
  rw [encodeChar, h]
  cases hfind : α.symbols.finIdxOf? (α.symbol v) with
  | some w => exact ⟨w, rfl⟩
  | none =>
    have hnone : α.symbols.toArray.finIdxOf? (α.symbol v) = none := Option.map_eq_none_iff.mp hfind
    exact absurd hmem (Array.finIdxOf?_eq_none_iff.mp hnone)

/-- What it takes that all symbols keep their values. -/
theorem keepsSymbols_iff :
    α.KeepsSymbols ↔ Function.Injective α.symbol ∧
      ∀ v w : Digit, α.aliases.lookup (α.symbol v) = some w → w = v := by
  constructor
  · intro hkeeps
    constructor
    · intro v w heq
      have hv := hkeeps v
      rw [heq, hkeeps w] at hv
      exact (Except.ok.inj hv).symm
    · intro v w halias
      have hw := encodeChar_of_lookup halias
      rw [hkeeps v] at hw
      exact (Except.ok.inj hw).symm
  · rintro ⟨hinj, halias⟩ v
    cases hlookup : α.aliases.lookup (α.symbol v) with
    | some w =>
      obtain rfl := halias v w hlookup
      exact encodeChar_of_lookup hlookup
    | none =>
      obtain ⟨w, hw⟩ := exists_encodeChar_symbol hlookup
      obtain rfl : w = v := hinj (symbol_of_encodeChar hlookup hw)
      exact hw

/-- The parts of an alphabet tell whether it keeps its symbols. -/
theorem keepsSymbols_iff_unambiguous (h : ofParts? symbols aliases = .ok α) :
    α.KeepsSymbols ↔ Unambiguous symbols aliases := by
  obtain ⟨rfl, hlookup⟩ := parts_of_ofParts? h
  rw [keepsSymbols_iff, ← nodup_symbols_iff]
  constructor
  · rintro ⟨hnodup, halias⟩
    refine ⟨hnodup, fun v value hvalue => ?_⟩
    have hfound := hlookup (α.symbol v)
    rw [symbol, hvalue] at hfound
    obtain ⟨w, hw, hwvalue⟩ := Option.map_eq_some_iff.mp hfound
    rw [← hwvalue, halias v w hw]
  · rintro ⟨hnodup, hown⟩
    refine ⟨hnodup, fun v w hw => ?_⟩
    have hfound := hlookup (α.symbol v)
    rw [hw] at hfound
    obtain ⟨value, hvalue, hwvalue⟩ := Option.map_eq_some_iff.mp hfound.symm
    exact Fin.ext (hwvalue.symm.trans (hown v value hvalue))

/-! ### From bytes to bytes -/

/-- Bytes without a word above the largest one are decoded and encoded again as they were. -/
def Restores (α : Alphabet) : Prop :=
  ∀ bytes : List UInt8, bytes.length % bytesPerUnit = 0 → (∀ w ∈ words bytes, w ≤ maxWord) →
    (α.decode bytes >>= α.encode) = .ok bytes

/-- Decoding and encoding bytes of even length, told without texts. -/
theorem decode_encode_eq {bytes : List UInt8} (h : bytes.length % bytesPerUnit = 0) :
    (α.decode bytes >>= α.encode) = α.encodeUnits (α.decodeUnits bytes) := by
  have hlength := α.length_decodeUnits bytes
  rw [decode, if_neg (not_not.mpr h)]
  change α.encode (String.ofList (α.decodeUnits bytes)) = _
  rw [encode, String.toList_ofList, if_neg (not_not.mpr hlength)]

/-- If all symbols keep their values, nothing is lost of words that are not too large. -/
theorem restores_of_keepsSymbols (h : α.KeepsSymbols) : α.Restores := by
  intro bytes heven hwords
  have hreduced : reduced bytes = bytes := (reduced_eq_self_iff heven).mpr hwords
  rw [decode_encode_eq heven, encodeUnits_decodeUnits h, hreduced]

/-- A word of one digit, three times over, tells whether its symbol keeps its value. -/
theorem keepsSymbols_of_restores (h : α.Restores) : α.KeepsSymbols := by
  intro v
  have hwords : ∀ w ∈ words (wordBytes (pack v v v)), w ≤ maxWord := by
    intro w hw
    rw [words_wordBytes, List.mem_singleton] at hw
    rw [hw]
    exact pack_le_maxWord v v v
  have heven : (wordBytes (pack v v v)).length % bytesPerUnit = 0 := by
    rw [length_wordBytes, Nat.mod_self]
  have hrestored := h (wordBytes (pack v v v)) heven hwords
  have hdecoded : α.decodeUnits (wordBytes (pack v v v)) =
      [α.symbol v, α.symbol v, α.symbol v] := by
    rw [wordBytes, decodeUnits, wordOfBytes_wordBytes, decodeWord_eq, unpack_pack]
    rfl
  rw [decode_encode_eq heven, hdecoded, encodeUnits] at hrestored
  obtain ⟨w, hunit, hrestored⟩ := bind_eq_ok_iff.mp hrestored
  have hword : wordBytes w = wordBytes (pack v v v) := Except.ok.inj hrestored
  obtain ⟨v₁, v₂, v₃, hv₁, -, -, rfl⟩ := exists_of_encodeUnit hunit
  -- the digits of a word are unique, so the first of them is the one that went in
  have hdigits := congrArg unpack (wordBytes_inj.mp hword)
  rw [unpack_pack, unpack_pack] at hdigits
  obtain rfl : v₁ = v := congrArg Prod.fst hdigits
  exact hv₁

/-! ### From text to text -/

/-- What a character is read back as: the symbol of its value, or the character itself if it has no
value. -/
def readBack (α : Alphabet) (c : Char) : Char :=
  match α.encodeChar c with
  | .ok v => α.symbol v
  | .error _ => c

/-- A character with a value is read back as the symbol of this value. -/
theorem symbol_eq_readBack {c : Char} {v : Digit} (h : α.encodeChar c = .ok v) :
    α.symbol v = α.readBack c := by
  rw [readBack, h]

/-- Symbols that keep their values are read back as themselves. -/
theorem readBack_of_mem (h : α.KeepsSymbols) {c : Char} (hc : c ∈ α.symbols) :
    α.readBack c = c := by
  obtain ⟨v, rfl⟩ := exists_symbol_eq hc
  exact (symbol_eq_readBack (h v)).symm

/-- Symbols that keep their values can be encoded. -/
theorem exists_encodeUnits_eq (h : α.KeepsSymbols) {cs : List Char}
    (hcs : ∀ c ∈ cs, c ∈ α.symbols) : ∃ bytes, α.encodeUnits cs = .ok bytes := by
  fun_induction encodeUnits α cs with
  | case1 c₁ c₂ c₃ rest ih =>
    obtain ⟨v₁, rfl⟩ := exists_symbol_eq (hcs c₁ (by simp))
    obtain ⟨v₂, rfl⟩ := exists_symbol_eq (hcs c₂ (by simp))
    obtain ⟨v₃, rfl⟩ := exists_symbol_eq (hcs c₃ (by simp))
    obtain ⟨bytes, hbytes⟩ := ih fun c hc => hcs c (by simp [hc])
    rw [encodeUnit_symbol h, hbytes]
    exact ⟨_, rfl⟩
  | case2 => exact ⟨[], rfl⟩

/-- A text of symbols that keep their values is encoded and decoded again as it was. -/
theorem encode_decode_eq (h : α.KeepsSymbols) {text : String}
    (hsymbols : ∀ c ∈ text.toList, c ∈ α.symbols)
    (hlength : text.toList.length % charsPerUnit = 0) :
    (α.encode text >>= α.decode) = .ok text := by
  obtain ⟨bytes, hbytes⟩ := exists_encodeUnits_eq h hsymbols
  obtain ⟨heven, hdecoded⟩ := decodeUnits_of_encodeUnits symbol_eq_readBack hlength hbytes
  have hsame : text.toList.map α.readBack = text.toList := by
    calc text.toList.map α.readBack = text.toList.map id :=
          List.map_congr_left fun c hc => readBack_of_mem h (hsymbols c hc)
      _ = text.toList := List.map_id _
  rw [encode, if_neg (not_not.mpr hlength), hbytes]
  change α.decode bytes = _
  rw [decode, if_neg (not_not.mpr heven), hdecoded, hsame, String.ofList_toList]

end Alphabet

/-- **Which alphabets are codecs.**  Take any alphabet that can be built.  All byte sequences of
even length, with no word above the largest one, are decoded and encoded again as they were exactly
if the parts of the alphabet are unambiguous.  If they are, then all texts of whole units over its
symbols are encoded and decoded again as they were. -/
theorem codec_iff_unambiguous (h : Alphabet.ofParts? symbols aliases = .ok α) :
    ((∀ bytes : List UInt8, bytes.length % bytesPerUnit = 0 → (∀ w ∈ words bytes, w ≤ maxWord) →
        (α.decode bytes >>= α.encode) = .ok bytes) ↔ Unambiguous symbols aliases) ∧
      (Unambiguous symbols aliases → ∀ text : String, (∀ c ∈ text.toList, c ∈ symbols) →
        text.toList.length % charsPerUnit = 0 → (α.encode text >>= α.decode) = .ok text) := by
  have hparts := Alphabet.keepsSymbols_iff_unambiguous h
  obtain ⟨rfl, -⟩ := Alphabet.parts_of_ofParts? h
  constructor
  · rw [← hparts]
    exact ⟨Alphabet.keepsSymbols_of_restores, Alphabet.restores_of_keepsSymbols⟩
  · intro hunambiguous text hsymbols hlength
    exact Alphabet.encode_decode_eq (hparts.mpr hunambiguous) hsymbols hlength

/-- An alias for the second symbol that repeats its value, and behind it one that would change the
value: the first of them counts, so this is a codec.  With the second one alone it is none. -/
theorem codec_iff_unambiguous_shadowed :
    (∃ α, Alphabet.ofParts? Alphabet.standard.symbols [('A', 1), ('A', 2)] = .ok α ∧
      (α.decode [0x92, 0x06] >>= α.encode) = .ok [0x92, 0x06] ∧
      (α.encode "ABBA'S" >>= α.decode) = .ok "ABBA'S") ∧
      ∃ α, Alphabet.ofParts? Alphabet.standard.symbols [('A', 2)] = .ok α ∧
        ∃ bytes, bytes.length % bytesPerUnit = 0 ∧ (∀ w ∈ words bytes, w ≤ maxWord) ∧
          (α.decode bytes >>= α.encode) ≠ .ok bytes := by
  constructor
  · have hunambiguous : Unambiguous Alphabet.standard.symbols [('A', 1), ('A', 2)] := by
      decide +kernel
    have hbuilt : Alphabet.ofParts? Alphabet.standard.symbols [('A', 1), ('A', 2)] =
        .ok ⟨Alphabet.standard.symbols, [('A', 1), ('A', 2)]⟩ := rfl
    have hword : words [0x92, 0x06] = [0x0692] := by decide
    have hwords : ∀ w ∈ words [0x92, 0x06], w ≤ maxWord := by
      rw [hword, List.forall_mem_singleton]
      decide
    have hsymbols : ∀ c ∈ "ABBA'S".toList, c ∈ Alphabet.standard.symbols := by
      simp [Alphabet.standard]
    obtain ⟨hbytes, htext⟩ := codec_iff_unambiguous hbuilt
    exact ⟨_, hbuilt, hbytes.mpr hunambiguous [0x92, 0x06] (by decide) hwords,
      htext hunambiguous "ABBA'S" hsymbols (by decide)⟩
  · have hambiguous : ¬Unambiguous Alphabet.standard.symbols [('A', 2)] := by decide +kernel
    have hbuilt : Alphabet.ofParts? Alphabet.standard.symbols [('A', 2)] =
        .ok ⟨Alphabet.standard.symbols, [('A', 2)]⟩ := rfl
    have hlost := mt (codec_iff_unambiguous hbuilt).1.mp hambiguous
    push Not at hlost
    exact ⟨_, hbuilt, hlost⟩

end Base40
end HexDiff
