import HexDiff.Proofs.Chains
import HexDiff.Proofs.Numerals
import HexDiff.Text.HexOffset
import Mathlib.Data.List.DropRight

/-!
# Which texts are offsets in hex

`HexOffset.Denotes` is the form of an offset: blanks, perhaps a mark, a sign, digits and blanks
again.  `HexOffset.accepted_iff` says that the texts of this form are read, with the value of their
digits, and no others.  The sign may be a plus sign, also behind a mark, since what is behind the
mark is read as a number.  Among the texts without a plus sign, exactly those without a sign are
read.

No part of the form can be taken for another one: blanks are no part of a number
(`trimBlanks_append`), and the letter of a mark is none of its digits
(`HexOffset.dropMark_eq_self`).
-/

namespace HexDiff

/-! ### Blanks at the ends -/

/-- What is taken away at the ends are blanks. -/
theorem exists_eq_append_trimBlanks (cs : List Char) :
    ∃ before after, cs = before ++ trimBlanks cs ++ after ∧
      (∀ c ∈ before, isBlank c) ∧ ∀ c ∈ after, isBlank c := by
  have htrim : trimBlanks cs = (cs.dropWhile isBlank).rdropWhile isBlank := rfl
  refine ⟨cs.takeWhile isBlank, (cs.dropWhile isBlank).rtakeWhile isBlank, ?_, ?_, ?_⟩
  · rw [htrim, List.append_assoc, List.rdropWhile_append_rtakeWhile,
      List.takeWhile_append_dropWhile]
  · intro c hc
    exact List.mem_takeWhile_imp hc
  · intro c hc
    exact List.mem_rtakeWhile_imp hc

/-- A text without blanks is what is left of it between blanks. -/
theorem trimBlanks_append {before cs after : List Char} (hbefore : ∀ c ∈ before, isBlank c)
    (hcs : ∀ c ∈ cs, isBlank c = false) (hafter : ∀ c ∈ after, isBlank c) :
    trimBlanks (before ++ (cs ++ after)) = cs := by
  have hkeep : ∀ ds : List Char, (∀ c ∈ ds, isBlank c = false) → ds.dropWhile isBlank = ds := by
    intro ds hds
    cases ds with
    | nil => rfl
    | cons d ds => exact List.dropWhile_cons_of_neg (by simp [hds d List.mem_cons_self])
  have hback : (cs ++ after).reverse.dropWhile isBlank = cs.reverse := by
    rw [List.reverse_append,
      List.dropWhile_append_of_pos fun c hc => hafter c (List.mem_reverse.mp hc)]
    exact hkeep _ fun c hc => hcs c (List.mem_reverse.mp hc)
  rw [trimBlanks, List.dropWhile_append_of_pos hbefore]
  cases cs with
  | nil =>
    rw [List.nil_append, List.dropWhile_eq_nil_iff.mpr hafter]
    rfl
  | cons c cs =>
    have hfront : ((c :: cs) ++ after).dropWhile isBlank = (c :: cs) ++ after :=
      List.dropWhile_cons_of_neg (by simp [hcs c List.mem_cons_self])
    rw [hfront, hback, List.reverse_reverse]

namespace HexOffset

/-- A text that is a number in hex, between blanks if one likes: a mark or none, one of some signs,
and one digit or more, with their value below `2 ^ 64`. -/
def Denotes (signs : List (List Char)) (text : List Char) (v : Nat) : Prop :=
  ∃ before mark sign digits after,
    text = before ++ (mark ++ (sign ++ digits) ++ after) ∧
    (∀ c ∈ before, isBlank c) ∧ (∀ c ∈ after, isBlank c) ∧
    mark ∈ [[], ['0', 'x'], ['0', 'X']] ∧ sign ∈ signs ∧
    digits ≠ [] ∧ (∀ c ∈ digits, c.isHexDigit) ∧ v = Hex.value digits ∧ v < 2 ^ 64

/-! ### Marks -/

/-- What is taken away in front is a mark. -/
theorem exists_eq_append_dropMark (cs : List Char) :
    ∃ mark ∈ [[], ['0', 'x'], ['0', 'X']], cs = mark ++ dropMark cs := by
  unfold dropMark
  split
  · exact ⟨['0', 'x'], by simp, rfl⟩
  · exact ⟨['0', 'X'], by simp, rfl⟩
  · exact ⟨[], by simp, rfl⟩

/-- A text without the letter of a mark has no mark. -/
theorem dropMark_eq_self {cs : List Char} (hlower : 'x' ∉ cs) (hupper : 'X' ∉ cs) :
    dropMark cs = cs := by
  unfold dropMark
  split
  · exact absurd (by simp) hlower
  · exact absurd (by simp) hupper
  · rfl

/-- Behind a mark a number is left as it is. -/
theorem dropMark_append {mark cs : List Char} (hmark : mark ∈ [[], ['0', 'x'], ['0', 'X']])
    (hlower : 'x' ∉ cs) (hupper : 'X' ∉ cs) : dropMark (mark ++ cs) = cs := by
  simp only [List.mem_cons, List.not_mem_nil, or_false] at hmark
  rcases hmark with rfl | rfl | rfl
  · exact dropMark_eq_self hlower hupper
  · rfl
  · rfl

/-! ### Offsets -/

/-- What is read is the number behind the mark. -/
theorem read_eq_ok_iff_numeral (text : String) (v : Nat) :
    read text = .ok v ↔
      Numeral.read 16 Numeral.wordLimit (dropMark (trimBlanks text.toList)) = .ok v := by
  unfold read
  dsimp only
  split
  · next h =>
    rw [h]
    exact iff_of_false (by rintro ⟨⟩) (by rintro ⟨⟩)
  · next h => exact mapError_eq_ok_iff

/-- The characters of a number are no blanks and no letters of a mark. -/
theorem of_mem_sign_append {sign digits : List Char} (hsign : sign ∈ [[], ['+']])
    (hdigits : ∀ c ∈ digits, c.isHexDigit) :
    ∀ c ∈ sign ++ digits, isBlank c = false ∧ c ≠ 'x' ∧ c ≠ 'X' := by
  intro c hc
  have hcases : c = '+' ∨ c.isHexDigit := by
    rcases List.mem_pair.mp hsign with rfl | rfl
    · exact Or.inr (hdigits c hc)
    · exact (List.mem_cons.mp hc).imp_right (hdigits c)
  rcases hcases with rfl | hdigit
  · decide
  · refine ⟨Hex.isBlank_of_isHexDigit hdigit, ?_, ?_⟩
    · rintro rfl
      exact absurd hdigit (by decide)
    · rintro rfl
      exact absurd hdigit (by decide)

/-- What is read has the form of an offset. -/
theorem denotes_of_read {text : String} {v : Nat} (h : read text = .ok v) :
    Denotes [[], ['+']] text.toList v := by
  obtain ⟨before, after, htext, hbefore, hafter⟩ := exists_eq_append_trimBlanks text.toList
  obtain ⟨mark, hmark, htrimmed⟩ := exists_eq_append_dropMark (trimBlanks text.toList)
  rw [read_eq_ok_iff_numeral, Numeral.read_eq_ok_iff (by decide)] at h
  obtain ⟨sign, digits, hnumber, hsign, hne, hdigits, hv, hlt⟩ := h
  refine ⟨before, mark, sign, digits, after, ?_, hbefore, hafter, hmark, hsign, hne, hdigits, hv,
    hlt⟩
  rw [← hnumber, ← htrimmed, ← List.append_assoc]
  exact htext

/-- What has the form of an offset is read. -/
theorem read_of_denotes {text : String} {v : Nat} (h : Denotes [[], ['+']] text.toList v) :
    read text = .ok v := by
  obtain ⟨before, mark, sign, digits, after, htext, hbefore, hafter, hmark, hsign, hne, hdigits, hv,
    hlt⟩ := h
  have hnumber := of_mem_sign_append hsign hdigits
  have hblank : ∀ c ∈ mark ++ (sign ++ digits), isBlank c = false := by
    intro c hc
    rcases List.mem_append.mp hc with hc | hc
    · have hmarks : ∀ mark ∈ [[], ['0', 'x'], ['0', 'X']], ∀ c ∈ mark, isBlank c = false := by
        simp [isBlank]
      exact hmarks mark hmark c hc
    · exact (hnumber c hc).1
  have hlower : 'x' ∉ sign ++ digits := fun hc => (hnumber 'x' hc).2.1 rfl
  have hupper : 'X' ∉ sign ++ digits := fun hc => (hnumber 'X' hc).2.2 rfl
  rw [read_eq_ok_iff_numeral, htext, trimBlanks_append hbefore hblank hafter,
    dropMark_append hmark hlower hupper, Numeral.read_eq_ok_iff (by decide)]
  exact ⟨sign, digits, rfl, hsign, hne, hdigits, hv, hlt⟩

/-- Without signs there is no plus sign anywhere. -/
theorem Denotes.plus_notMem {text : List Char} {v : Nat} (h : Denotes [[]] text v) :
    '+' ∉ text := by
  obtain ⟨before, mark, sign, digits, after, rfl, hbefore, hafter, hmark, hsign, -, hdigits, -⟩ := h
  have hblank : isBlank '+' = false := by decide
  have hletter : ∀ mark ∈ [[], ['0', 'x'], ['0', 'X']], '+' ∉ mark := by decide
  rw [List.mem_singleton.mp hsign, List.nil_append]
  intro hmem
  rcases List.mem_append.mp hmem with hmem | hmem
  · exact absurd (hbefore '+' hmem) (by simp [hblank])
  rcases List.mem_append.mp hmem with hmem | hmem
  · rcases List.mem_append.mp hmem with hmem | hmem
    · exact hletter mark hmark hmem
    · exact absurd (hdigits '+' hmem) (by decide)
  · exact absurd (hafter '+' hmem) (by simp [hblank])

/-- The texts without a sign are those without a plus sign. -/
theorem denotes_unsigned_iff (text : List Char) (v : Nat) :
    Denotes [[]] text v ↔ Denotes [[], ['+']] text v ∧ '+' ∉ text := by
  constructor
  · intro h
    refine ⟨?_, h.plus_notMem⟩
    obtain ⟨before, mark, sign, digits, after, htext, hbefore, hafter, hmark, hsign, hrest⟩ := h
    exact ⟨before, mark, sign, digits, after, htext, hbefore, hafter, hmark,
      List.mem_cons.mpr (Or.inl (List.mem_singleton.mp hsign)), hrest⟩
  · rintro ⟨⟨before, mark, sign, digits, after, rfl, hbefore, hafter, hmark, hsign, hrest⟩, hplus⟩
    rcases List.mem_pair.mp hsign with rfl | rfl
    · exact ⟨before, mark, [], digits, after, rfl, hbefore, hafter, hmark, by simp, hrest⟩
    · exact absurd (by simp) hplus

/-- **Which texts are offsets in hex.**  A text is read as a number exactly if it is this number in
hex below `2 ^ 64`, between blanks, with a mark or without, and behind a plus sign or none; every
other text is refused.  Those of them without a plus sign are exactly the texts of this form that
have no sign. -/
theorem accepted_iff (text : String) (v : Nat) :
    (read text = .ok v ↔ Denotes [[], ['+']] text.toList v) ∧
    (read text = .ok v ∧ '+' ∉ text.toList ↔ Denotes [[]] text.toList v) := by
  have hread : read text = .ok v ↔ Denotes [[], ['+']] text.toList v :=
    ⟨denotes_of_read, read_of_denotes⟩
  refine ⟨hread, ?_⟩
  rw [denotes_unsigned_iff, hread]

/-- A text with a sign that is read. -/
theorem read_signed : read "+5" = .ok 5 ∧ ¬Denotes [[]] "+5".toList 5 := by
  have hplus : '+' ∈ "+5".toList := by decide
  exact ⟨by decide, fun h => h.plus_notMem hplus⟩

end HexOffset
end HexDiff
