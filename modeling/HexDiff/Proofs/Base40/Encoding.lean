import HexDiff.Proofs.Base40.Codecs

/-!
# Encoding any text

A text is encoded in two stages, the number of its characters being checked before: all characters
are looked up in their order, and their values are packed three by three
(`Alphabet.encodeUnits_eq`).  So it is always the first character without a value that is reported,
in whichever unit it stands.

What the value of a character is can be told by the parts from which the alphabet was built
(`valueIn`).  Since the aliases were checked then, every value that a lookup finds is below forty,
and sixteen bits are enough for each product and each sum of a unit.  To say so, the word of a unit
is computed a second time with a check at every step (`Alphabet.wordChecked_unit`).
-/

namespace HexDiff
namespace Base40

variable {α : Alphabet} {symbols : Vector Char 40} {aliases : List (Char × UInt8)}

/-! ### Values by the parts of an alphabet -/

/-- The value of a character by the parts of an alphabet: that of the first entry for it among the
aliases, or else the first of its places among the symbols. -/
def valueIn (symbols : Vector Char 40) (aliases : List (Char × UInt8)) (c : Char) : Option Nat :=
  ((aliases.lookup c).map UInt8.toNat).or (symbols.toList.idxOf? c)

/-- A character that is neither an alias nor a symbol. -/
def Unknown (symbols : Vector Char 40) (aliases : List (Char × UInt8)) (c : Char) : Prop :=
  c ∉ aliases.map Prod.fst ∧ c ∉ symbols.toList

instance (c : Char) : Decidable (Unknown symbols aliases c) :=
  inferInstanceAs (Decidable (_ ∧ _))

/-- The characters without a value. -/
theorem valueIn_eq_none_iff {c : Char} :
    valueIn symbols aliases c = none ↔ Unknown symbols aliases c := by
  have halias : aliases.lookup c = none ↔ c ∉ aliases.map Prod.fst := by
    simp only [List.lookup_eq_none_iff, bne_iff_ne, List.mem_map, not_exists, not_and]
    exact forall₂_congr fun entry _ => ne_comm
  rw [valueIn, Option.or_eq_none_iff, Option.map_eq_none_iff, List.idxOf?_eq_none_iff, halias,
    Unknown]

/-- An alphabet gives the values that its parts give. -/
theorem valueIn_eq (h : Alphabet.ofParts? symbols aliases = .ok α) (c : Char) :
    valueIn symbols aliases c =
      ((α.aliases.lookup c).or (α.symbols.finIdxOf? c)).map Fin.val := by
  obtain ⟨rfl, hlookup⟩ := Alphabet.parts_of_ofParts? h
  rw [valueIn, ← hlookup, List.idxOf?_eq_map_finIdxOf?_val, Vector.finIdxOf?_toList,
    Option.map_map, Option.map_or]
  rfl

/-- A character is encoded as its value, or refused if it has none. -/
theorem Alphabet.encodeChar_eq (α : Alphabet) (c : Char) :
    α.encodeChar c =
      ((α.aliases.lookup c).or (α.symbols.finIdxOf? c)).elim (.error (.character c)) .ok := by
  unfold encodeChar
  cases α.aliases.lookup c with
  | some v => rfl
  | none => cases α.symbols.finIdxOf? c <;> rfl

/-- The value of a character is what it is encoded as. -/
theorem exists_encodeChar_eq (h : Alphabet.ofParts? symbols aliases = .ok α) {c : Char}
    (hc : ¬Unknown symbols aliases c) :
    ∃ v : Digit, valueIn symbols aliases c = some v.val ∧ α.encodeChar c = .ok v := by
  rw [← valueIn_eq_none_iff, valueIn_eq h, Option.map_eq_none_iff] at hc
  obtain ⟨v, hv⟩ := Option.ne_none_iff_exists'.mp hc
  refine ⟨v, ?_, ?_⟩
  · rw [valueIn_eq h, hv, Option.map_some]
  · rw [Alphabet.encodeChar_eq, hv, Option.elim_some]

/-- A character without a value is refused. -/
theorem encodeChar_of_unknown (h : Alphabet.ofParts? symbols aliases = .ok α) {c : Char}
    (hc : Unknown symbols aliases c) : α.encodeChar c = .error (.character c) := by
  rw [← valueIn_eq_none_iff, valueIn_eq h, Option.map_eq_none_iff] at hc
  rw [Alphabet.encodeChar_eq, hc, Option.elim_none]

/-- What a character is encoded as is its value. -/
theorem valueIn_of_encodeChar (h : Alphabet.ofParts? symbols aliases = .ok α) {c : Char}
    {v : Digit} (hv : α.encodeChar c = .ok v) : valueIn symbols aliases c = some v.val := by
  by_cases hc : Unknown symbols aliases c
  · rw [encodeChar_of_unknown h hc] at hv
    cases hv
  · obtain ⟨w, hvalue, hw⟩ := exists_encodeChar_eq h hc
    obtain rfl := Except.ok.inj (hv.symm.trans hw)
    exact hvalue

/-! ### Arithmetic with a check -/

/-- One more digit at the end of a word, or nothing if the product or the sum is too large for
sixteen bits. -/
def extendChecked (w : UInt16) (v : Digit) : Option UInt16 :=
  if w.toBitVec.umulOverflow 40 || (w * 40).toBitVec.uaddOverflow (UInt16.ofNat v).toBitVec then
    none
  else some (extend w v)

/-- Nothing is too large as long as the exact result fits. -/
theorem extendChecked_eq {w : UInt16} {v : Digit} (h : w.toNat * 40 + v < 65536) :
    extendChecked w v = some (extend w v) := by
  have hproduct : w.toBitVec.umulOverflow 40 = false := by
    simp only [BitVec.umulOverflow, decide_eq_false_iff_not]
    change ¬w.toNat * 40 ≥ 65536
    omega
  have hsum : (w * 40).toBitVec.uaddOverflow (UInt16.ofNat v).toBitVec = false := by
    have hvalue : (w * 40).toNat = w.toNat * 40 := by
      simp only [UInt16.toNat_mul, UInt16.reduceToNat]
      omega
    have hdigit : (UInt16.ofNat v).toNat = v := by
      rw [UInt16.toNat_ofNat']
      omega
    simp only [BitVec.uaddOverflow, decide_eq_false_iff_not]
    change ¬(w * 40).toNat + (UInt16.ofNat v).toNat ≥ 65536
    omega
  rw [extendChecked, hproduct, hsum]
  rfl

/-- The word of some characters after the characters that are in `w` already.  Every step is
checked, and a step that overflows leaves nothing, neither a word nor an error. -/
def Alphabet.wordChecked (α : Alphabet) (w : UInt16) : List Char → Option (Except Error UInt16)
  | [] => some (.ok w)
  | c :: cs =>
    match α.encodeChar c with
    | .error e => some (.error e)
    | .ok v => (extendChecked w v).bind fun w' => α.wordChecked w' cs

/-- A character that is refused ends the word. -/
theorem Alphabet.wordChecked_of_error {c : Char} {e : Error} (h : α.encodeChar c = .error e)
    (w : UInt16) (cs : List Char) : α.wordChecked w (c :: cs) = some (.error e) := by
  rw [wordChecked, h]

/-- A character with a value goes into the word, if there is room for it. -/
theorem Alphabet.wordChecked_of_ok {c : Char} {v : Digit} (h : α.encodeChar c = .ok v)
    {w : UInt16} (hfit : w.toNat * 40 + v < 65536) (cs : List Char) :
    α.wordChecked w (c :: cs) = α.wordChecked (extend w v) cs := by
  rw [wordChecked, h]
  simp only [extendChecked_eq hfit, Option.bind_some]

/-- Encoding three characters never overflows, whether they have values or not. -/
theorem Alphabet.wordChecked_unit (α : Alphabet) (c₁ c₂ c₃ : Char) :
    α.wordChecked 0 [c₁, c₂, c₃] = some (α.encodeUnit c₁ c₂ c₃) := by
  unfold encodeUnit
  cases h₁ : α.encodeChar c₁ with
  | error e => exact wordChecked_of_error h₁ 0 [c₂, c₃]
  | ok v₁ =>
    have hfirst : (0 : UInt16).toNat * 40 + v₁ < 65536 := by
      rw [UInt16.toNat_zero]
      omega
    rw [wordChecked_of_ok h₁ hfirst]
    cases h₂ : α.encodeChar c₂ with
    | error e => exact wordChecked_of_error h₂ _ [c₃]
    | ok v₂ =>
      have hsecond : (extend 0 v₁).toNat * 40 + v₂ < 65536 := by
        rw [toNat_extend_zero]
        omega
      rw [wordChecked_of_ok h₂ hsecond]
      cases h₃ : α.encodeChar c₃ with
      | error e => exact wordChecked_of_error h₃ _ []
      | ok v₃ =>
        have hthird : (extend (extend 0 v₁) v₂).toNat * 40 + v₃ < 65536 := by
          rw [toNat_extend_extend]
          omega
        rw [wordChecked_of_ok h₃ hthird]
        rfl

/-! ### Words -/

/-- The words of some values, three at a time. -/
def packUnits : List Digit → List UInt16
  | v₁ :: v₂ :: v₃ :: rest => pack v₁ v₂ v₃ :: packUnits rest
  | _ => []

/-- A list that is no unit with more behind it. -/
theorem length_lt_of_no_unit {β : Type} {xs : List β}
    (h : ∀ x₁ x₂ x₃ rest, xs = x₁ :: x₂ :: x₃ :: rest → False) : xs.length < charsPerUnit := by
  rcases xs with _ | ⟨x₁, _ | ⟨x₂, _ | ⟨x₃, rest⟩⟩⟩
  · exact Nat.zero_lt_succ 2
  · exact Nat.lt_of_sub_eq_succ rfl
  · exact Nat.lt_succ_self 2
  · exact (h x₁ x₂ x₃ rest rfl).elim

/-- There is a word for three values. -/
theorem length_packUnits (vs : List Digit) : (packUnits vs).length = vs.length / charsPerUnit := by
  fun_induction packUnits vs with
  | case1 v₁ v₂ v₃ rest ih =>
    simp only [List.length_cons, ih, charsPerUnit]
    omega
  | case2 vs hshort =>
    rw [List.length_nil, Nat.div_eq_of_lt (length_lt_of_no_unit hshort)]

/-- Each word has three values that follow each other. -/
theorem getElem?_packUnits {vs : List Digit} {k : Nat} {v₁ v₂ v₃ : Digit}
    (h₁ : vs[3 * k]? = some v₁) (h₂ : vs[3 * k + 1]? = some v₂) (h₃ : vs[3 * k + 2]? = some v₃) :
    (packUnits vs)[k]? = some (pack v₁ v₂ v₃) := by
  fun_induction packUnits vs generalizing k with
  | case1 w₁ w₂ w₃ rest ih =>
    cases k with
    | zero =>
      obtain rfl := Option.some.inj h₁
      obtain rfl := Option.some.inj h₂
      obtain rfl := Option.some.inj h₃
      rfl
    | succ k => exact ih h₁ h₂ h₃
  | case2 vs hshort =>
    have hlength : 3 * k + 2 < vs.length := (List.getElem?_eq_some_iff.mp h₃).1
    have hless : vs.length < 3 := length_lt_of_no_unit hshort
    omega

/-- Words come back from their bytes. -/
theorem words_flatMap_wordBytes (ws : List UInt16) : words (ws.flatMap wordBytes) = ws := by
  induction ws with
  | nil => rfl
  | cons w ws ih =>
    change wordOfBytes w.toUInt8 (w >>> 8).toUInt8 :: words (ws.flatMap wordBytes) = w :: ws
    rw [wordOfBytes_wordBytes, ih]

/-- Encoding whole units looks up all characters and packs their values. -/
theorem Alphabet.encodeUnits_eq {cs : List Char} (h : cs.length % charsPerUnit = 0) :
    α.encodeUnits cs =
      (cs.mapM α.encodeChar).map fun vs => (packUnits vs).flatMap wordBytes := by
  fun_induction encodeUnits α cs with
  | case1 c₁ c₂ c₃ rest ih =>
    have hrest : rest.length % charsPerUnit = 0 := by
      simp only [List.length_cons, charsPerUnit] at h ⊢
      omega
    rw [ih hrest, encodeUnit, List.mapM_cons, List.mapM_cons, List.mapM_cons]
    cases α.encodeChar c₁ with
    | error e => rfl
    | ok v₁ =>
      cases α.encodeChar c₂ with
      | error e => rfl
      | ok v₂ =>
        cases α.encodeChar c₃ with
        | error e => rfl
        | ok v₃ =>
          cases rest.mapM α.encodeChar with
          | error e => rfl
          | ok vs => rfl
  | case2 cs hshort =>
    have hless := length_lt_of_no_unit hshort
    obtain rfl : cs = [] := List.eq_nil_of_length_eq_zero (Nat.mod_eq_of_lt hless ▸ h)
    rfl

/-! ### Texts -/

/-- A number of characters that makes no whole units is reported before any of them is looked up. -/
theorem encode_of_length {text : String} (h : text.length % charsPerUnit ≠ 0) :
    α.encode text = .error (.inputLength text.length charsPerUnit) := by
  rw [← String.length_toList] at h ⊢
  exact if_pos h

/-- A text of whole units is looked up character by character. -/
theorem encode_of_units {text : String} (h : text.length % charsPerUnit = 0) :
    α.encode text =
      (text.toList.mapM α.encodeChar).map fun vs => (packUnits vs).flatMap wordBytes := by
  rw [← String.length_toList] at h
  rw [Alphabet.encode, if_neg (not_not.mpr h), Alphabet.encodeUnits_eq h]

/-- The first character without a value is reported. -/
theorem encode_of_find? (h : Alphabet.ofParts? symbols aliases = .ok α) {text : String} {c : Char}
    (hlength : text.length % charsPerUnit = 0)
    (hfind : text.toList.find? (fun c => decide (Unknown symbols aliases c)) = some c) :
    α.encode text = .error (.character c) := by
  obtain ⟨hc, front, back, htext, hfront⟩ := List.find?_eq_some_iff_append.mp hfind
  have hknown : ∀ c' ∈ front, ∃ v, α.encodeChar c' = .ok v := by
    intro c' hc'
    have hnot : ¬Unknown symbols aliases c' := by simpa using hfront c' hc'
    obtain ⟨v, -, hv⟩ := exists_encodeChar_eq h hnot
    exact ⟨v, hv⟩
  rw [encode_of_units hlength, htext,
    mapM_eq_error hknown (encodeChar_of_unknown h (of_decide_eq_true hc))]
  rfl

/-- If all characters have values, these are packed. -/
theorem exists_encode_eq (h : Alphabet.ofParts? symbols aliases = .ok α) {text : String}
    (hlength : text.length % charsPerUnit = 0)
    (hknown : ∀ c ∈ text.toList, ¬Unknown symbols aliases c) :
    ∃ vs : List Digit, text.toList.map (valueIn symbols aliases) = vs.map (some ∘ Fin.val) ∧
      α.encode text = .ok ((packUnits vs).flatMap wordBytes) := by
  obtain ⟨vs, hvs⟩ : ∃ vs, text.toList.mapM α.encodeChar = .ok vs := by
    refine exists_mapM_eq fun c hc => ?_
    obtain ⟨v, -, hv⟩ := exists_encodeChar_eq h (hknown c hc)
    exact ⟨v, hv⟩
  refine ⟨vs, map_eq_map_of_mapM (valueIn_of_encodeChar h) hvs, ?_⟩
  rw [encode_of_units hlength, hvs]
  rfl

/-- A text of whole units is not refused for its length. -/
theorem encode_ne_inputLength (h : Alphabet.ofParts? symbols aliases = .ok α) {text : String}
    (hlength : text.length % charsPerUnit = 0) (length unit : Nat) :
    α.encode text ≠ .error (.inputLength length unit) := by
  intro herror
  -- the error would have to be about a character, or there would be none
  cases hfind : text.toList.find? (fun c => decide (Unknown symbols aliases c)) with
  | some c =>
    rw [encode_of_find? h hlength hfind] at herror
    cases herror
  | none =>
    have hknown : ∀ c ∈ text.toList, ¬Unknown symbols aliases c := by simpa using hfind
    obtain ⟨vs, -, hbytes⟩ := exists_encode_eq h hlength hknown
    rw [hbytes] at herror
    cases herror

/-- Each character of a text has its value at the same place. -/
theorem exists_getElem?_eq_value {cs : List Char} {vs : List Digit}
    (h : cs.map (valueIn symbols aliases) = vs.map (some ∘ Fin.val)) {i : Nat} {c : Char}
    (hc : cs[i]? = some c) :
    ∃ v : Digit, valueIn symbols aliases c = some v.val ∧ vs[i]? = some v := by
  have hi := congrArg (·[i]?) h
  simp only [List.getElem?_map, hc, Option.map_some] at hi
  obtain ⟨v, hv, hvc⟩ := Option.map_eq_some_iff.mp hi.symm
  exact ⟨v, hvc.symm, hv⟩

/-- Each word takes the bytes of a unit. -/
theorem length_flatMap_wordBytes (ws : List UInt16) :
    (ws.flatMap wordBytes).length = bytesPerUnit * ws.length := by
  simp only [List.length_flatMap, length_wordBytes, List.map_const', List.sum_replicate_nat,
    Nat.mul_comm]

/-- **Encoding any text.**  Take any alphabet that can be built and any text.  If the number of its
characters is not a multiple of three, this number is reported, whatever the characters are, and
only then is a length reported.  If it is one, the first character that is neither an alias nor a
symbol is reported.  If there is none, the text becomes two bytes for three characters, and the
words of these bytes are made of the values of three characters each; the value of a character is
that of the first alias for it, or else its first place among the symbols.  No product and no sum on
the way to a word is ever too large for sixteen bits. -/
theorem encode_exact (h : Alphabet.ofParts? symbols aliases = .ok α) (text : String) :
    ((∃ length unit, α.encode text = .error (.inputLength length unit)) ↔
        text.length % charsPerUnit ≠ 0) ∧
      (text.length % charsPerUnit ≠ 0 →
        α.encode text = .error (.inputLength text.length charsPerUnit)) ∧
      (text.length % charsPerUnit = 0 → ∀ c,
        text.toList.find? (fun c => decide (Unknown symbols aliases c)) = some c →
          α.encode text = .error (.character c)) ∧
      (text.length % charsPerUnit = 0 → (∀ c ∈ text.toList, ¬Unknown symbols aliases c) →
        ∃ bytes, α.encode text = .ok bytes ∧ bytes.length = 2 * text.length / 3 ∧
          ∀ k c₁ c₂ c₃, text.toList[3 * k]? = some c₁ → text.toList[3 * k + 1]? = some c₂ →
            text.toList[3 * k + 2]? = some c₃ →
              ∃ (v₁ v₂ v₃ : Digit) (w : UInt16), valueIn symbols aliases c₁ = some v₁.val ∧
                valueIn symbols aliases c₂ = some v₂.val ∧
                valueIn symbols aliases c₃ = some v₃.val ∧ (words bytes)[k]? = some w ∧
                w.toNat = 1600 * v₁ + 40 * v₂ + v₃ ∧ w ≤ maxWord) ∧
      ∀ c₁ c₂ c₃, α.wordChecked 0 [c₁, c₂, c₃] = some (α.encodeUnit c₁ c₂ c₃) := by
  refine ⟨⟨?_, fun hlength => ⟨_, _, encode_of_length hlength⟩⟩, encode_of_length, ?_, ?_,
    α.wordChecked_unit⟩
  · rintro ⟨length, unit, herror⟩ hlength
    exact encode_ne_inputLength h hlength length unit herror
  · intro hlength c hfind
    exact encode_of_find? h hlength hfind
  · intro hlength hknown
    obtain ⟨vs, hvs, hbytes⟩ := exists_encode_eq h hlength hknown
    have hcount : text.length = vs.length := by
      rw [← String.length_toList]
      simpa using congrArg List.length hvs
    refine ⟨_, hbytes, ?_, ?_⟩
    · rw [length_flatMap_wordBytes, length_packUnits, ← hcount]
      simp only [bytesPerUnit, charsPerUnit] at hlength ⊢
      omega
    · intro k c₁ c₂ c₃ h₁ h₂ h₃
      obtain ⟨v₁, hv₁, hvs₁⟩ := exists_getElem?_eq_value hvs h₁
      obtain ⟨v₂, hv₂, hvs₂⟩ := exists_getElem?_eq_value hvs h₂
      obtain ⟨v₃, hv₃, hvs₃⟩ := exists_getElem?_eq_value hvs h₃
      refine ⟨v₁, v₂, v₃, pack v₁ v₂ v₃, hv₁, hv₂, hv₃, ?_, ?_, pack_le_maxWord v₁ v₂ v₃⟩
      · rw [words_flatMap_wordBytes, getElem?_packUnits hvs₁ hvs₂ hvs₃]
      · rw [toNat_pack]
        omega

/-- An alphabet with two aliases, one of them a character of two bytes: a text that ends inside a
unit, one with two characters that have no value, and one that is encoded. -/
theorem encode_exact_aliases :
    ∃ α, Alphabet.ofParts? Alphabet.standard.symbols [('a', 1), ('é', 39)] = .ok α ∧
      α.encode "é!" = .error (.inputLength 2 3) ∧
      α.encode "ABC!é?" = .error (.character '!') ∧
      ∃ bytes, α.encode "éa " = .ok bytes ∧ bytes.length = 2 ∧
        ∃ w, (words bytes)[0]? = some w ∧ w.toNat = 62440 := by
  have hbuilt : Alphabet.ofParts? Alphabet.standard.symbols [('a', 1), ('é', 39)] =
      .ok ⟨Alphabet.standard.symbols, [('a', 1), ('é', 39)]⟩ := rfl
  refine ⟨_, hbuilt, ?_, ?_, ?_⟩
  · exact (encode_exact hbuilt "é!").2.1 (by decide)
  · exact (encode_exact hbuilt "ABC!é?").2.2.1 (by decide) '!' (by decide +kernel)
  · have hnone : "éa ".toList.find? (fun c => decide
        (Unknown Alphabet.standard.symbols [('a', 1), ('é', 39)] c)) = none := by decide +kernel
    have hknown : ∀ c ∈ "éa ".toList,
        ¬Unknown Alphabet.standard.symbols [('a', 1), ('é', 39)] c :=
      fun c hc hunknown => List.find?_eq_none.mp hnone c hc (decide_eq_true hunknown)
    obtain ⟨bytes, hbytes, hlength, hwords⟩ :=
      (encode_exact hbuilt "éa ").2.2.2.1 (by decide) hknown
    obtain ⟨v₁, v₂, v₃, w, h₁, h₂, h₃, hw, hvalue, -⟩ := hwords 0 'é' 'a' ' ' rfl rfl rfl
    have hvalues : v₁.val = 39 ∧ v₂.val = 1 ∧ v₃.val = 0 :=
      ⟨(Option.some.inj h₁).symm, (Option.some.inj h₂).symm, (Option.some.inj h₃).symm⟩
    refine ⟨bytes, hbytes, hlength, w, hw, ?_⟩
    omega

end Base40
end HexDiff
