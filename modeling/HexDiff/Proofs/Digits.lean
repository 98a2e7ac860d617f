import HexDiff.Hex
import Mathlib.Algebra.Ring.Nat
import Mathlib.Data.List.TakeWhile
import Mathlib.Data.Nat.Log

/-!
# Hexadecimal digits read back

What is written in base sixteen can be read back: `Hex.value` is the number that some digits stand
for, and a number in a column has that value however wide the column is (`Hex.value_padded`).  Since
no other character is a digit, the end of a column shows by itself, and two columns followed by the
same mark are equal only if the numbers are (`Hex.padded_append_inj`).

A byte is its two digits (`Hex.ofByte_injective`), and no byte looks like two characters that are no
digits.

The digits can also be told one by one, by division: `Hex.getElem?_padded` is the digit of a column
at any place, the zeros in front of the number included.
-/

namespace HexDiff
namespace Hex

/-- A digit reads back as its value. -/
@[simp] theorem digitValue?_upperDigit {n : Nat} (h : n < 16) :
    digitValue? (upperDigit n) = some n := by
  have hall : ∀ n < 16, digitValue? (upperDigit n) = some n := by decide
  exact hall n h

/-! ### Bytes -/

/-- Different bytes have different digits. -/
theorem ofByte_injective : Function.Injective ofByte := by
  intro a b hab
  have ha := a.toNat_lt
  have hb := b.toNat_lt
  rw [ofByte, ofByte, List.cons.injEq, List.cons.injEq] at hab
  obtain ⟨hhigh, hlow, -⟩ := hab
  have hdiv : a.toNat / 16 = b.toNat / 16 := by
    have := congrArg digitValue? hhigh
    rwa [digitValue?_upperDigit (by omega), digitValue?_upperDigit (by omega),
      Option.some.injEq] at this
  have hmod : a.toNat % 16 = b.toNat % 16 := by
    have := congrArg digitValue? hlow
    rwa [digitValue?_upperDigit (by omega), digitValue?_upperDigit (by omega),
      Option.some.injEq] at this
  refine UInt8.toNat_inj.mp ?_
  omega

/-- A byte takes two characters. -/
@[simp] theorem length_ofByte (b : UInt8) : (ofByte b).length = 2 := rfl

/-- Each character of a byte is a digit. -/
theorem isSome_digitValue?_of_mem_ofByte {b : UInt8} {c : Char} (h : c ∈ ofByte b) :
    (digitValue? c).isSome := by
  have hb := b.toNat_lt
  rw [ofByte, List.mem_cons, List.mem_singleton] at h
  rcases h with rfl | rfl
  · rw [digitValue?_upperDigit (by omega)]
    rfl
  · rw [digitValue?_upperDigit (by omega)]
    rfl

/-- A text with a character that is no digit is not a byte. -/
theorem ofByte_ne {c : Char} {text : List Char} (hc : digitValue? c = none) (h : c ∈ text)
    (b : UInt8) : ofByte b ≠ text := by
  rintro rfl
  have hdigit := isSome_digitValue?_of_mem_ofByte h
  rw [hc] at hdigit
  cases hdigit

/-! ### Numbers -/

/-- The number that digits stand for, the first one weighing most. -/
def value (digits : List Char) : Nat :=
  digits.foldl (fun n c => 16 * n + (digitValue? c).getD 0) 0

/-- One more digit. -/
theorem value_append_singleton (digits : List Char) (c : Char) :
    value (digits ++ [c]) = 16 * value digits + (digitValue? c).getD 0 := by
  rw [value, List.foldl_append]
  rfl

/-- A number reads back as itself. -/
@[simp] theorem value_ofNat (n : Nat) : value (ofNat n) = n := by
  fun_induction ofNat n with
  | case1 n h => simp [value, digitValue?_upperDigit h]
  | case2 n h ih =>
    rw [value_append_singleton, ih, digitValue?_upperDigit (Nat.mod_lt n (by omega)),
      Option.getD_some]
    omega

/-- Zeros in front do not count. -/
@[simp] theorem value_padded (width n : Nat) : value (padded width n) = n := by
  have hzeros : ∀ m, (List.replicate m '0').foldl
      (fun n c => 16 * n + (digitValue? c).getD 0) 0 = 0 := by
    intro m
    induction m with
    | zero => rfl
    | succ m ih => simpa [List.replicate_succ, digitValue?] using ih
  have hvalue := value_ofNat n
  rw [value] at hvalue ⊢
  rw [padded, List.foldl_append, hzeros, hvalue]

/-- A number is written in digits only. -/
theorem isSome_digitValue?_of_mem_ofNat {n : Nat} {c : Char} (h : c ∈ ofNat n) :
    (digitValue? c).isSome := by
  fun_induction ofNat n with
  | case1 n hn =>
    rw [List.mem_singleton] at h
    rw [h, digitValue?_upperDigit hn]
    rfl
  | case2 n hn ih =>
    rcases List.mem_append.mp h with h | h
    · exact ih h
    · rw [List.mem_singleton] at h
      rw [h, digitValue?_upperDigit (Nat.mod_lt n (by omega))]
      rfl

/-- So is a number in a column. -/
theorem isSome_digitValue?_of_mem_padded {width n : Nat} {c : Char} (h : c ∈ padded width n) :
    (digitValue? c).isSome := by
  rcases List.mem_append.mp h with h | h
  · rw [List.eq_of_mem_replicate h]
    rfl
  · exact isSome_digitValue?_of_mem_ofNat h

/-! ### Digit by digit -/

/-- A number has one digit more than its logarithm. -/
theorem length_ofNat (n : Nat) : (ofNat n).length = Nat.log 16 n + 1 := by
  fun_induction ofNat n with
  | case1 n h => rw [List.length_singleton, Nat.log_of_lt h]
  | case2 n h ih =>
    have hpos : 0 < Nat.log 16 n := Nat.log_pos (by omega) (Nat.le_of_not_lt h)
    rw [List.length_append, ih, Nat.log_div_base, List.length_singleton]
    omega

/-- A column is as wide as it has to be, or as the number needs. -/
theorem length_padded (width n : Nat) :
    (padded width n).length = max width (Nat.log 16 n + 1) := by
  rw [padded, List.length_append, List.length_replicate, length_ofNat]
  omega

/-- The digit of a number at a place. -/
theorem getElem?_ofNat {n k : Nat} (h : k < (ofNat n).length) :
    (ofNat n)[k]? = some (upperDigit (n / 16 ^ ((ofNat n).length - 1 - k) % 16)) := by
  fun_induction ofNat n with
  | case1 n hn =>
    have hk : k = 0 := Nat.lt_one_iff.mp h
    have hlast : [upperDigit n].length - 1 - 0 = 0 := rfl
    rw [hk, hlast, pow_zero, Nat.div_one, Nat.mod_eq_of_lt hn]
    rfl
  | case2 n hn ih =>
    rw [List.length_append, List.length_singleton] at h ⊢
    rcases Nat.lt_or_eq_of_le (Nat.le_of_lt_succ h) with hlt | rfl
    · -- the places of the leading digits are one further from the end than in the quotient
      have hplace : (ofNat (n / 16)).length + 1 - 1 - k = (ofNat (n / 16)).length - 1 - k + 1 := by
        omega
      rw [List.getElem?_append_left hlt, ih hlt, hplace, Nat.div_div_eq_div_mul, pow_succ']
    · have hlast : (ofNat (n / 16)).length + 1 - 1 - (ofNat (n / 16)).length = 0 := by omega
      rw [List.getElem?_concat_length, hlast, pow_zero, Nat.div_one]

/-- The digit of a column at a place. -/
theorem getElem?_padded {width n k : Nat} (h : k < (padded width n).length) :
    (padded width n)[k]? =
      some (upperDigit (n / 16 ^ ((padded width n).length - 1 - k) % 16)) := by
  rw [padded, List.length_append, List.length_replicate] at h ⊢
  rcases Nat.lt_or_ge k (width - (ofNat n).length) with hlt | hge
  · -- the number is too small for this place
    have hplace : Nat.log 16 n + 1 ≤
        width - (ofNat n).length + (ofNat n).length - 1 - k := by
      rw [length_ofNat] at hlt ⊢
      omega
    have hsmall : n < 16 ^ (width - (ofNat n).length + (ofNat n).length - 1 - k) :=
      Nat.lt_of_lt_of_le (Nat.lt_pow_succ_log_self (by omega) n)
        (Nat.pow_le_pow_right (by omega) hplace)
    rw [List.getElem?_append_left (by rwa [List.length_replicate]),
      List.getElem?_replicate_of_lt hlt, Nat.div_eq_of_lt hsmall]
    rfl
  · have hplace : (ofNat n).length - 1 - (k - (width - (ofNat n).length)) =
        width - (ofNat n).length + (ofNat n).length - 1 - k := by
      omega
    rw [List.getElem?_append_right (by rwa [List.length_replicate]), List.length_replicate,
      getElem?_ofNat (by omega), hplace]

/-! ### Columns of numbers -/

/-- A column ends where the first character stands that is no digit. -/
theorem takeWhile_padded_append (width n : Nat) {c : Char} (hc : digitValue? c = none)
    (rest : List Char) :
    (padded width n ++ c :: rest).takeWhile (fun c => (digitValue? c).isSome) =
      padded width n := by
  rw [List.takeWhile_append_of_pos fun _ => isSome_digitValue?_of_mem_padded,
    List.takeWhile_cons_of_neg (by simp [hc]), List.append_nil]

/-- Columns of one width, followed by a mark that is no digit, tell their numbers. -/
theorem padded_append_inj {width m n : Nat} {c : Char} (hc : digitValue? c = none)
    {rest rest' : List Char} (h : padded width m ++ c :: rest = padded width n ++ c :: rest') :
    m = n := by
  have hpadded : padded width m = padded width n := by
    rw [← takeWhile_padded_append width m hc rest, h, takeWhile_padded_append width n hc rest']
  rw [← value_padded width m, hpadded, value_padded]

end Hex
end HexDiff
