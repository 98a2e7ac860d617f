import HexDiff.Proofs.Digits
import HexDiff.Text.Blank
import HexDiff.Text.Numeral
import Mathlib.Data.List.Basic

/-!
# Which numbers are read

The characters that have a value are the hex digits, and `Numeral.read_eq_ok_iff` says what is read
in base sixteen: one digit or more, perhaps behind a plus sign, with a value in the range.  The
value is that of the digits, however many zeros there are in front.

Reading goes from the left and stops as soon as the value leaves the range.  It cannot come back
into it, since more digits make no number smaller (`Hex.value_le_value_append`).
-/

namespace HexDiff
namespace Hex

/-! ### Digits -/

/-- The hex digits by their numbers. -/
theorem isHexDigit_iff_toNat (c : Char) :
    c.isHexDigit ↔ (48 ≤ c.toNat ∧ c.toNat ≤ 57) ∨ (97 ≤ c.toNat ∧ c.toNat ≤ 102) ∨
      (65 ≤ c.toNat ∧ c.toNat ≤ 70) := by
  simp only [Char.isHexDigit, Char.isDigit, Bool.or_eq_true, Bool.and_eq_true,
    decide_eq_true_eq, ge_iff_le, UInt32.le_iff_toNat_le, or_assoc]
  rfl

/-- A digit has a value, and nothing else does. -/
theorem isSome_digitValue?_eq (c : Char) : (digitValue? c).isSome = c.isHexDigit := by
  rw [Bool.eq_iff_iff, isHexDigit_iff_toNat, digitValue?]
  split
  · next h => exact iff_of_true rfl (Or.inl h)
  · split
    · next h => exact iff_of_true rfl (Or.inr (Or.inr h))
    · split
      · next h => exact iff_of_true rfl (Or.inr (Or.inl h))
      · exact iff_of_false Bool.false_ne_true (by omega)

/-- What is no digit has no value. -/
theorem digitValue?_eq_none_iff (c : Char) : digitValue? c = none ↔ ¬c.isHexDigit := by
  rw [← isSome_digitValue?_eq, Bool.not_eq_true, Option.isSome_eq_false_iff,
    Option.isNone_iff_eq_none]

/-- A hex digit is no blank. -/
theorem isBlank_of_isHexDigit {c : Char} (h : c.isHexDigit) : isBlank c = false := by
  rw [isHexDigit_iff_toNat] at h
  simp [isBlank]
  omega

/-- The value of a digit is below sixteen. -/
theorem digitValue?_lt {c : Char} {d : Nat} (h : digitValue? c = some d) : d < 16 := by
  unfold digitValue? at h
  dsimp only at h
  split at h
  · rw [Option.some.injEq] at h
    omega
  · split at h
    · rw [Option.some.injEq] at h
      omega
    · split at h
      · rw [Option.some.injEq] at h
        omega
      · cases h

/-- More digits make no number smaller. -/
theorem value_le_value_append (digits more : List Char) :
    value digits ≤ value (digits ++ more) := by
  induction more generalizing digits with
  | nil => rw [List.append_nil]
  | cons c more ih =>
    have hrest := ih (digits ++ [c])
    rw [value_append_singleton, List.append_assoc] at hrest
    exact Nat.le_trans (by omega) hrest

end Hex

namespace Numeral

open Hex (value)

variable {limit v : Nat}

/-- In base sixteen all hex digits are digits. -/
theorem digitValue?_sixteen (c : Char) : digitValue? 16 c = Hex.digitValue? c := by
  rw [digitValue?]
  cases hc : Hex.digitValue? c with
  | none => rfl
  | some d => exact Option.filter_some_pos (decide_eq_true (Hex.digitValue?_lt hc))

/-- Behind the digits seen so far, only digits are read, and only as long as the value stays in the
range. -/
theorem extend_eq_ok_iff {seen : List Char} (hseen : value seen < limit) (digits : List Char) :
    extend 16 limit (value seen) digits = .ok v ↔
      (∀ c ∈ digits, c.isHexDigit) ∧ v = value (seen ++ digits) ∧ v < limit := by
  induction digits generalizing seen with
  | nil =>
    rw [extend, List.append_nil, Except.ok.injEq]
    constructor
    · rintro rfl
      exact ⟨fun _ hc => absurd hc List.not_mem_nil, rfl, hseen⟩
    · rintro ⟨-, rfl, -⟩
      rfl
  | cons c digits ih =>
    rw [extend, digitValue?_sixteen, List.forall_mem_cons]
    cases hc : Hex.digitValue? c with
    | none =>
      have hnot := (Hex.digitValue?_eq_none_iff c).mp hc
      exact iff_of_false (by rintro ⟨⟩) (fun h => hnot h.1.1)
    | some d =>
      have hdigit : c.isHexDigit := by
        rw [← Hex.isSome_digitValue?_eq, hc]
        rfl
      have hvalue : value seen * 16 + d = value (seen ++ [c]) := by
        rw [Hex.value_append_singleton, hc, Option.getD_some, Nat.mul_comm]
      have happend : seen ++ c :: digits = seen ++ [c] ++ digits := by
        rw [List.append_assoc]
        rfl
      dsimp only
      rw [hvalue, happend]
      split
      · next hlt => rw [ih hlt, and_iff_right hdigit]
      · next hge =>
        -- the digits that follow cannot bring the value back into the range
        have hmore := Hex.value_le_value_append (seen ++ [c]) digits
        refine iff_of_false (by rintro ⟨⟩) ?_
        rintro ⟨-, rfl, hlt⟩
        omega

/-- Digits from the first one on. -/
theorem extend_zero_eq_ok_iff (hlimit : 0 < limit) (digits : List Char) :
    extend 16 limit 0 digits = .ok v ↔
      (∀ c ∈ digits, c.isHexDigit) ∧ v = value digits ∧ v < limit := by
  have hnone : value [] < limit := hlimit
  exact extend_eq_ok_iff hnone digits

/-- **What is read as a number.**  One digit or more, perhaps behind a plus sign, with a value in
the range. -/
theorem read_eq_ok_iff (hlimit : 0 < limit) (text : List Char) :
    read 16 limit text = .ok v ↔
      ∃ sign digits, text = sign ++ digits ∧ sign ∈ [[], ['+']] ∧ digits ≠ [] ∧
        (∀ c ∈ digits, c.isHexDigit) ∧ v = value digits ∧ v < limit := by
  have hplus : ¬Char.isHexDigit '+' := by decide
  constructor
  · intro h
    unfold read at h
    split at h
    · cases h
    · cases h
    · next digits hdigits =>
      obtain ⟨hall, hv, hlt⟩ := (extend_zero_eq_ok_iff hlimit digits).mp h
      refine ⟨['+'], digits, rfl, by simp, ?_, hall, hv, hlt⟩
      rintro rfl
      exact hdigits rfl
    · next hne _ _ =>
      obtain ⟨hall, hv, hlt⟩ := (extend_zero_eq_ok_iff hlimit text).mp h
      exact ⟨[], text, rfl, by simp, hne, hall, hv, hlt⟩
  · rintro ⟨sign, digits, rfl, hsign, hne, hall, hv, hlt⟩
    have hread := (extend_zero_eq_ok_iff hlimit digits).mpr ⟨hall, hv, hlt⟩
    cases digits with
    | nil => exact absurd rfl hne
    | cons c digits =>
      rcases List.mem_pair.mp hsign with rfl | rfl
      · have hc : c ≠ '+' := by
          rintro rfl
          exact hplus (hall '+' List.mem_cons_self)
        rw [List.nil_append, read]
        · exact hread
        · rintro ⟨⟩
        · rintro ⟨⟩
          exact hc rfl
        · rintro _ ⟨⟩
          exact hc rfl
      · exact hread

end Numeral
end HexDiff
