/-!
# Hexadecimal digits

How bytes and offsets are written in base sixteen.  A byte takes exactly two digits, a number as
many as it needs; a column of fixed width is filled with zeros on the left and never cuts a
number that is too wide for it.

The width of a column is kept in sixteen bits.  Nothing can be written into a column that is asked
to be wider, and who asks for one breaks off there.
-/

namespace HexDiff
namespace Hex

/-- The upper-case digit of a value below sixteen. -/
def upperDigit (n : Nat) : Char :=
  if n < 10 then Char.ofNat (48 + n) else Char.ofNat (55 + n)

/-- The lower-case digit of a value below sixteen. -/
def lowerDigit (n : Nat) : Char :=
  if n < 10 then Char.ofNat (48 + n) else Char.ofNat (87 + n)

/-- The value of a digit of either case. -/
def digitValue? (c : Char) : Option Nat :=
  let n := c.toNat
  if 48 ≤ n ∧ n ≤ 57 then some (n - 48)
  else if 65 ≤ n ∧ n ≤ 70 then some (n - 55)
  else if 97 ≤ n ∧ n ≤ 102 then some (n - 87)
  else none

/-! ### Bytes -/

/-- A byte as two upper-case digits. -/
def ofByte (b : UInt8) : List Char :=
  [upperDigit (b.toNat / 16), upperDigit (b.toNat % 16)]

/-- A byte as two lower-case digits. -/
def ofByteLower (b : UInt8) : List Char :=
  [lowerDigit (b.toNat / 16), lowerDigit (b.toNat % 16)]

/-- Bytes as lower-case digits without separators, the usual form of a digest. -/
def digest (bytes : List UInt8) : String :=
  String.ofList (bytes.flatMap ofByteLower)

/-- Bytes as upper-case digits, each byte followed by a space. -/
def spaced (bytes : List UInt8) : String :=
  String.ofList (bytes.flatMap fun b => ofByte b ++ [' '])

/-! ### Numbers -/

/-- The upper-case digits of a number, without leading zeros; zero is one digit. -/
def ofNat (n : Nat) : List Char :=
  if n < 16 then [upperDigit n] else ofNat (n / 16) ++ [upperDigit (n % 16)]
termination_by n

/-- The lower-case digits of a number, without leading zeros. -/
def ofNatLower (n : Nat) : List Char :=
  if n < 16 then [lowerDigit n] else ofNatLower (n / 16) ++ [lowerDigit (n % 16)]
termination_by n

/-- A number in a column: zeros on the left up to `width` digits, all digits if it needs more. -/
def padded (width n : Nat) : List Char :=
  List.replicate (width - (ofNat n).length) '0' ++ ofNat n

/-- The widest column that there can be. -/
def maxWidth : Nat := 65535

/-- A column that is too wide to be written. -/
structure Overwide where
  width : Nat
  deriving DecidableEq, Repr

/-- What is said when a program breaks off because of such a column. -/
def Overwide.message (_ : Overwide) : String :=
  "Formatting argument out of range"

/-- A text with a number in a column behind it. -/
def paddedOnto (text : String) (width n : Nat) : Except Overwide String :=
  if maxWidth < width then .error ⟨width⟩ else .ok (text ++ String.ofList (padded width n))

end Hex
end HexDiff
