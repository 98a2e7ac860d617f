import HexDiff.Hex

/-!
# Reading numbers

An unsigned number is an optional plus sign followed by at least one digit.  Digits are taken from
the left, and the first thing that goes wrong is the one reported: a character that is no digit, or
a digit with which the value leaves the range.
-/

namespace HexDiff

/-- Why a text is no number of the wanted range. -/
inductive NumeralError where
  | empty
  | invalidDigit
  | tooLarge
  deriving DecidableEq, Repr

/-- The wording of a refusal. -/
def NumeralError.message : NumeralError → String
  | .empty => "cannot parse integer from empty string"
  | .invalidDigit => "invalid digit found in string"
  | .tooLarge => "number too large to fit in target type"

namespace Numeral

/-- The first number that needs more than 64 bits. -/
def wordLimit : Nat := 0x10000000000000000

/-- The value of a digit in the given radix, at most sixteen. -/
def digitValue? (radix : Nat) (c : Char) : Option Nat :=
  (Hex.digitValue? c).filter (· < radix)

/-- Digits onto a value already read, staying below `limit`. -/
def extend (radix limit value : Nat) : List Char → Except NumeralError Nat
  | [] => .ok value
  | c :: cs =>
    match digitValue? radix c with
    | none => .error .invalidDigit
    | some d =>
      if value * radix + d < limit then extend radix limit (value * radix + d) cs
      else .error .tooLarge

/-- A number below `limit` in the given radix.  A plus sign is accepted in front of a digit. -/
def read (radix limit : Nat) : List Char → Except NumeralError Nat
  | [] => .error .empty
  | ['+'] => .error .invalidDigit
  | '+' :: cs => extend radix limit 0 cs
  | cs => extend radix limit 0 cs

end Numeral
end HexDiff
