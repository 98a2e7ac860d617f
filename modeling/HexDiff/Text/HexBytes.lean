import HexDiff.Text.Blank
import HexDiff.Text.Numeral
import HexDiff.Text.Utf8

/-!
# Bytes in hex

Bytes written in hex, in any number of pieces.  Blanks are dropped wherever they stand and the
pieces are joined, so that a byte may be cut between two pieces.  If a digit is missing, a zero is
put in front of the first one.  Each two digits are then read as a number below 256.

How many digits there are is counted in bytes of UTF-8; a text with other characters than those of
ASCII is refused after the count.
-/

namespace HexDiff

/-- Why a text is no sequence of bytes. -/
inductive HexBytesError where
  /-- A text with characters that cannot be digits, as a whole. -/
  | notAscii (digits : List Char)
  /-- Two characters that are no number. -/
  | pair (first second : Char) (e : NumeralError)
  deriving DecidableEq, Repr

/-- The wording of a refusal. -/
def HexBytesError.message : HexBytesError → String
  | .notAscii digits => s!"invalid hex string '{String.ofList digits}'"
  | .pair first second e => s!"invalid hex byte '{String.ofList [first, second]}': {e.message}"

namespace HexBytes

/-- The digits of some pieces. -/
def join (pieces : List String) : List Char :=
  (pieces.flatMap String.toList).filter fun c => !isBlank c

/-- Digits of an even number of bytes. -/
def pad (digits : List Char) : List Char :=
  if (utf8 digits).length % 2 = 1 then '0' :: digits else digits

/-- The bytes of an even number of digits. -/
def readPairs : List Char → Except HexBytesError (List UInt8)
  | first :: second :: rest =>
    match Numeral.read 16 256 [first, second] with
    | .error e => .error (.pair first second e)
    | .ok n => (readPairs rest).map (UInt8.ofNat n :: ·)
  | _ => .ok []

/-- The bytes that some pieces of text stand for. -/
def read (pieces : List String) : Except HexBytesError (List UInt8) :=
  let digits := pad (join pieces)
  if digits.all fun c => c.toNat < 128 then readPairs digits else .error (.notAscii digits)

end HexBytes
end HexDiff
