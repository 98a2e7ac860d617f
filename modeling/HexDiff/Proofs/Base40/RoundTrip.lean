import Mathlib.Data.List.Basic
import HexDiff.Proofs.Base40.Words
import HexDiff.Proofs.Chains

/-!
# There and back in base 40

What is lost when bytes are decoded and encoded again, and when a text is encoded and decoded again.

Bytes lose what a word has above the largest one that encoding makes, in an alphabet whose symbols
all keep their values when they are encoded (`Alphabet.KeepsSymbols`): that is
`Alphabet.encodeUnits_decodeUnits`.  A text loses the difference between characters of one value:
whatever map tells the symbol that stands for each character, it also tells what becomes of a text
(`Alphabet.decodeUnits_of_encodeUnits`).

The standard alphabet keeps its symbols, and it has three characters besides them, for which the
space and the letter O stand.  So both losses can be told exactly
(`Base40.standard_there_and_back`).
-/

namespace HexDiff
namespace Base40

/-! ### Words above the largest one -/

/-- A byte sequence with each word brought below `maxWord` by taking off 64000, the number of words
that encoding makes. -/
def reduced (bytes : List UInt8) : List UInt8 :=
  (words bytes).flatMap fun w => wordBytes (w % 64000)

/-- Different words have different bytes. -/
theorem wordBytes_inj {w w' : UInt16} : wordBytes w = wordBytes w' ↔ w = w' := by
  refine ⟨fun h => ?_, congrArg wordBytes⟩
  obtain ⟨hlow, hhigh⟩ : w.toUInt8 = w'.toUInt8 ∧ (w >>> 8).toUInt8 = (w' >>> 8).toUInt8 := by
    simpa only [wordBytes, List.cons.injEq, and_true] using h
  rw [← wordOfBytes_wordBytes w, hlow, hhigh, wordOfBytes_wordBytes]

/-- Bytes are left as they are exactly if none of their words is too large. -/
theorem reduced_eq_self_iff {bytes : List UInt8} (h : bytes.length % bytesPerUnit = 0) :
    reduced bytes = bytes ↔ ∀ w ∈ words bytes, w ≤ maxWord := by
  fun_induction words bytes with
  | case1 lo hi rest ih =>
    have hrest : rest.length % bytesPerUnit = 0 := by
      simp only [List.length_cons, bytesPerUnit] at h ⊢
      omega
    have hcons : reduced (lo :: hi :: rest) =
        wordBytes (wordOfBytes lo hi % 64000) ++ reduced rest := rfl
    have hsplit : lo :: hi :: rest = wordBytes (wordOfBytes lo hi) ++ rest := by
      rw [wordBytes_wordOfBytes]
      rfl
    have happend : wordBytes (wordOfBytes lo hi % 64000) ++ reduced rest =
          wordBytes (wordOfBytes lo hi) ++ rest ↔
        wordBytes (wordOfBytes lo hi % 64000) = wordBytes (wordOfBytes lo hi) ∧
          reduced rest = rest :=
      ⟨fun happ => List.append_inj happ rfl, fun ⟨hword, hmore⟩ => by rw [hword, hmore]⟩
    rw [hcons, hsplit, happend, wordBytes_inj, mod_eq_self_iff, ih hrest, List.forall_mem_cons]
  | case2 bytes hshort =>
    match bytes, h with
    | [], _ => simp [reduced, words]
    | lo :: hi :: rest, _ => exact (hshort lo hi rest rfl).elim

/-! ### Alphabets -/

namespace Alphabet

variable {α : Alphabet}

/-- The symbol of a value. -/
def symbol (α : Alphabet) (v : Digit) : Char :=
  α.symbols.get v

/-- A word is decoded to the symbols of its values. -/
theorem decodeWord_eq (α : Alphabet) (w : UInt16) :
    α.decodeWord w =
      [α.symbol (unpack w).1, α.symbol (unpack w).2.1, α.symbol (unpack w).2.2] := rfl

/-- Every symbol is encoded as the value that it has.  This may fail if a symbol occurs twice, or if
it is also an alias. -/
def KeepsSymbols (α : Alphabet) : Prop :=
  ∀ v : Digit, α.encodeChar (α.symbol v) = .ok v

/-- A character that is no alias is encoded as a value whose symbol it is. -/
theorem symbol_of_encodeChar {c : Char} {v : Digit} (halias : α.aliases.lookup c = none)
    (h : α.encodeChar c = .ok v) : α.symbol v = c := by
  rw [encodeChar, halias] at h
  cases hfind : α.symbols.finIdxOf? c with
  | none =>
    rw [hfind] at h
    cases h
  | some i =>
    rw [hfind] at h
    obtain rfl : i = v := Except.ok.inj h
    obtain ⟨j, hj, rfl⟩ := Option.map_eq_some_iff.mp hfind
    exact (Array.finIdxOf?_eq_some_iff.mp hj).1

/-! ### From bytes to bytes -/

/-- The symbols of three values are encoded as the word of these values. -/
theorem encodeUnit_symbol (h : α.KeepsSymbols) (v₁ v₂ v₃ : Digit) :
    α.encodeUnit (α.symbol v₁) (α.symbol v₂) (α.symbol v₃) = .ok (pack v₁ v₂ v₃) := by
  rw [encodeUnit, h v₁, h v₂, h v₃]
  rfl

/-- Bytes decoded and encoded again are reduced. -/
theorem encodeUnits_decodeUnits (h : α.KeepsSymbols) (bytes : List UInt8) :
    α.encodeUnits (α.decodeUnits bytes) = .ok (reduced bytes) := by
  fun_induction decodeUnits α bytes with
  | case1 lo hi rest ih =>
    have hunit := encodeUnit_symbol h (unpack (wordOfBytes lo hi)).1
      (unpack (wordOfBytes lo hi)).2.1 (unpack (wordOfBytes lo hi)).2.2
    rw [pack_unpack] at hunit
    simp only [decodeWord_eq, List.cons_append, List.nil_append, encodeUnits]
    rw [hunit, ih]
    rfl
  | case2 bytes hshort =>
    rw [reduced, words, List.flatMap_nil]
    · rfl
    · exact hshort

/-- Three characters come from each word. -/
theorem length_decodeUnits_eq (α : Alphabet) (bytes : List UInt8) :
    (α.decodeUnits bytes).length = charsPerUnit * (bytes.length / bytesPerUnit) := by
  fun_induction decodeUnits α bytes with
  | case1 lo hi rest ih =>
    simp only [decodeWord_eq, List.length_append, List.length_cons, List.length_nil, charsPerUnit,
      bytesPerUnit] at ih ⊢
    omega
  | case2 bytes hshort =>
    rcases bytes with _ | ⟨lo, _ | ⟨hi, rest⟩⟩
    · rfl
    · simp [charsPerUnit, bytesPerUnit]
    · exact (hshort lo hi rest rfl).elim

/-- Words are decoded to whole units. -/
theorem length_decodeUnits (α : Alphabet) (bytes : List UInt8) :
    (α.decodeUnits bytes).length % charsPerUnit = 0 := by
  rw [length_decodeUnits_eq, Nat.mul_mod_right]

/-! ### From text to text -/

/-- What is known of three characters that could be encoded. -/
theorem exists_of_encodeUnit {c₁ c₂ c₃ : Char} {w : UInt16} (h : α.encodeUnit c₁ c₂ c₃ = .ok w) :
    ∃ v₁ v₂ v₃, α.encodeChar c₁ = .ok v₁ ∧ α.encodeChar c₂ = .ok v₂ ∧
      α.encodeChar c₃ = .ok v₃ ∧ w = pack v₁ v₂ v₃ := by
  rw [encodeUnit] at h
  obtain ⟨v₁, h₁, h⟩ := bind_eq_ok_iff.mp h
  obtain ⟨v₂, h₂, h⟩ := bind_eq_ok_iff.mp h
  obtain ⟨v₃, h₃, h⟩ := bind_eq_ok_iff.mp h
  exact ⟨v₁, v₂, v₃, h₁, h₂, h₃, (Except.ok.inj h).symm⟩

/-- A word that three characters were encoded as decodes to what stands for them. -/
theorem decodeWord_of_encodeUnit {f : Char → Char}
    (hf : ∀ {c v}, α.encodeChar c = .ok v → α.symbol v = f c) {c₁ c₂ c₃ : Char} {w : UInt16}
    (h : α.encodeUnit c₁ c₂ c₃ = .ok w) : α.decodeWord w = [f c₁, f c₂, f c₃] := by
  obtain ⟨v₁, v₂, v₃, h₁, h₂, h₃, rfl⟩ := exists_of_encodeUnit h
  rw [decodeWord_eq, unpack_pack, ← hf h₁, ← hf h₂, ← hf h₃]

/-- The bytes that some text was encoded as are whole words, and decode to what stands for its
characters. -/
theorem decodeUnits_of_encodeUnits {f : Char → Char}
    (hf : ∀ {c v}, α.encodeChar c = .ok v → α.symbol v = f c) {cs : List Char}
    {bytes : List UInt8} (hlength : cs.length % charsPerUnit = 0)
    (h : α.encodeUnits cs = .ok bytes) :
    bytes.length % bytesPerUnit = 0 ∧ α.decodeUnits bytes = cs.map f := by
  fun_induction encodeUnits α cs generalizing bytes with
  | case1 c₁ c₂ c₃ rest ih =>
    obtain ⟨w, hunit, h⟩ := bind_eq_ok_iff.mp h
    obtain ⟨more, hmore, h⟩ := bind_eq_ok_iff.mp h
    obtain rfl : wordBytes w ++ more = bytes := Except.ok.inj h
    have hrest : rest.length % charsPerUnit = 0 := by
      simp only [List.length_cons, charsPerUnit] at hlength ⊢
      omega
    obtain ⟨hwords, hdecoded⟩ := ih hrest hmore
    constructor
    · simp only [wordBytes, List.length_append, List.length_cons, List.length_nil,
        bytesPerUnit] at hwords ⊢
      omega
    · rw [wordBytes, List.cons_append, List.cons_append, List.nil_append, decodeUnits,
        wordOfBytes_wordBytes, decodeWord_of_encodeUnit hf hunit, hdecoded]
      rfl
  | case2 cs hshort =>
    rcases cs with _ | ⟨c₁, _ | ⟨c₂, _ | ⟨c₃, rest⟩⟩⟩
    · obtain rfl : [] = bytes := Except.ok.inj h
      exact ⟨rfl, rfl⟩
    · cases hlength
    · cases hlength
    · exact (hshort c₁ c₂ c₃ rest rfl).elim

end Alphabet

/-! ### The standard alphabet -/

/-- What stands for a character in the standard alphabet: a space for the null character and for the
middle dot, and the letter O for the digit zero. -/
def standIn (c : Char) : Char :=
  if c = '\x00' ∨ c = '\u00B7' then ' ' else if c = '0' then 'O' else c

/-- The characters that stand for themselves. -/
theorem standIn_eq_self_iff {c : Char} :
    standIn c = c ↔ c ≠ '\x00' ∧ c ≠ '\u00B7' ∧ c ≠ '0' := by
  unfold standIn
  split
  · next h => rcases h with rfl | rfl <;> decide
  · next h =>
    obtain ⟨hnull, hdot⟩ := not_or.mp h
    split
    · next hzero =>
      subst hzero
      decide
    · next hzero => exact iff_of_true rfl ⟨hnull, hdot, hzero⟩

/-- The aliases of the standard alphabet are none of its symbols. -/
theorem keepsSymbols_standard : Alphabet.standard.KeepsSymbols := by
  unfold Alphabet.KeepsSymbols
  decide +kernel

/-- A character that the standard alphabet encodes has the value of what stands for it. -/
theorem symbol_standIn {c : Char} {v : Digit} (h : Alphabet.standard.encodeChar c = .ok v) :
    Alphabet.standard.symbol v = standIn c := by
  by_cases hself : standIn c = c
  · obtain ⟨hnull, hdot, hzero⟩ := standIn_eq_self_iff.mp hself
    have halias : Alphabet.standard.aliases.lookup c = none := by
      simp only [Alphabet.standard, List.lookup_cons, beq_eq_false_iff_ne.mpr hnull,
        beq_eq_false_iff_ne.mpr hdot, beq_eq_false_iff_ne.mpr hzero, List.lookup_nil]
    rw [hself, Alphabet.symbol_of_encodeChar halias h]
  · -- one of the three aliases, whose value can be looked up
    rw [standIn_eq_self_iff] at hself
    have hcases : c = '\x00' ∨ c = '\u00B7' ∨ c = '0' := by
      by_contra hnone
      exact hself (by simpa only [not_or] using hnone)
    rcases hcases with rfl | rfl | rfl
    all_goals
      cases h
      rfl

/-- **There and back in the standard alphabet.**  Every byte sequence of even length decodes, and
the text that it decodes to is encoded as the same bytes with each word taken modulo 64000; these
are the bytes themselves exactly if no word is above the largest one.  Every text that can be
encoded is decoded to the same text with a space for each null character and middle dot, and the
letter O for each zero; this is the text itself exactly if it has none of the three. -/
theorem standard_there_and_back :
    (∀ bytes : List UInt8, bytes.length % bytesPerUnit = 0 →
      ∃ text, Alphabet.standard.decode bytes = .ok text ∧
        Alphabet.standard.encode text = .ok (reduced bytes) ∧
        (reduced bytes = bytes ↔ ∀ w ∈ words bytes, w ≤ maxWord)) ∧
      ∀ (text : String) (bytes : List UInt8), Alphabet.standard.encode text = .ok bytes →
        Alphabet.standard.decode bytes = .ok (String.ofList (text.toList.map standIn)) ∧
        (String.ofList (text.toList.map standIn) = text ↔
          ∀ c ∈ text.toList, c ≠ '\x00' ∧ c ≠ '\u00B7' ∧ c ≠ '0') := by
  constructor
  · intro bytes heven
    have hlength := Alphabet.standard.length_decodeUnits bytes
    refine ⟨String.ofList (Alphabet.standard.decodeUnits bytes), ?_, ?_,
      reduced_eq_self_iff heven⟩
    · rw [Alphabet.decode, if_neg (not_not.mpr heven)]
    · rw [Alphabet.encode, String.toList_ofList, if_neg (not_not.mpr hlength)]
      exact Alphabet.encodeUnits_decodeUnits keepsSymbols_standard bytes
  · intro text bytes hencode
    have hlength : text.toList.length % charsPerUnit = 0 := by
      by_contra hne
      rw [Alphabet.encode, if_pos hne] at hencode
      cases hencode
    rw [Alphabet.encode, if_neg (not_not.mpr hlength)] at hencode
    obtain ⟨heven, hdecoded⟩ :=
      Alphabet.decodeUnits_of_encodeUnits symbol_standIn hlength hencode
    refine ⟨?_, ?_⟩
    · rw [Alphabet.decode, if_neg (not_not.mpr heven), hdecoded]
    · have hsame : text.toList.map standIn = text.toList ↔ ∀ c ∈ text.toList, standIn c = c := by
        simpa only [List.map_id, id] using
          List.map_inj_left (f := standIn) (g := id) (l := text.toList)
      rw [← String.toList_inj, String.toList_ofList, hsame]
      exact forall₂_congr fun c _ => standIn_eq_self_iff

/-- The largest word, a larger one that loses its excess, and a text with all three aliases. -/
theorem standard_there_and_back_excess :
    (∃ text, Alphabet.standard.decode [0xFF, 0xF9, 0x01, 0xFA] = .ok text ∧
      Alphabet.standard.encode text = .ok [0xFF, 0xF9, 0x01, 0x00]) ∧
      Alphabet.standard.decode [0x0F, 0x00] = .ok "  O" := by
  have hexcess : reduced [0xFF, 0xF9, 0x01, 0xFA] = [0xFF, 0xF9, 0x01, 0x00] := by decide
  have haliases : Alphabet.standard.encode "\x00\u00B70" = .ok [0x0F, 0x00] := by decide +kernel
  obtain ⟨text, hdecode, hencode, -⟩ :=
    standard_there_and_back.1 [0xFF, 0xF9, 0x01, 0xFA] (by decide)
  rw [hexcess] at hencode
  exact ⟨⟨text, hdecode, hencode⟩, (standard_there_and_back.2 _ _ haliases).1⟩

end Base40
end HexDiff
