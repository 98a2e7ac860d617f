import HexDiff.Text.Blank
import HexDiff.Text.Numeral

/-!
# Offsets in hex

An offset is a hex number of at most 64 bits, between blanks if one likes, and with the mark `0x` or
`0X` in front of it or without.
-/

namespace HexDiff

/-- Why a text is no offset. -/
inductive HexOffsetError where
  | empty
  /-- A text without its blanks, and what is wrong with the number. -/
  | numeral (text : List Char) (e : NumeralError)
  deriving DecidableEq, Repr

/-- The wording of a refusal. -/
def HexOffsetError.message : HexOffsetError → String
  | .empty => "empty offset"
  | .numeral text e => s!"invalid hex offset '{String.ofList text}': {e.message}"

namespace HexOffset

/-- A text without the mark of a hex number. -/
def dropMark : List Char → List Char
  | '0' :: 'x' :: rest => rest
  | '0' :: 'X' :: rest => rest
  | cs => cs

/-- The offset that a text stands for. -/
def read (text : String) : Except HexOffsetError Nat :=
  let trimmed := trimBlanks text.toList
  match dropMark trimmed with
  | [] => .error .empty
  | digits => (Numeral.read 16 Numeral.wordLimit digits).mapError (.numeral trimmed)

end HexOffset
end HexDiff
