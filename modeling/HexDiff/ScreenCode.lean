import HexDiff.Text.Quoted

/-!
# Screen codes

Screen codes number the glyphs of a character display.  The codes below 32 show what ASCII has at
64 and above, the codes from 32 to 63 agree with ASCII, and the rest are graphics and reverse video
without a text form.  Three of the low codes show glyphs that ASCII does not have.
-/

namespace HexDiff
namespace ScreenCode

/-- What is shown for a code that has no text form. -/
def placeholder : Char := '~'

/-- A character without a screen code. -/
structure Error where
  character : Char
  deriving DecidableEq, Repr

/-- The wording of the error. -/
def Error.message (e : Error) : String :=
  s!"invalid screen-code character: {quoteChar e.character}"

/-- The low codes whose glyph is not the ASCII character at the same place: a pound sign and two
arrows. -/
def hasOwnGlyph (b : UInt8) : Bool :=
  b == 0x1C || b == 0x1E || b == 0x1F

/-- The character that a code shows. -/
def decodeByte (b : UInt8) : Char :=
  if hasOwnGlyph b then placeholder
  else if b < 0x20 then Char.ofNat (64 + b.toNat)
  else if b < 0x40 then Char.ofNat b.toNat
  else placeholder

/-- The code of a character. -/
def encodeChar (c : Char) : Except Error UInt8 :=
  if ('@' ≤ c ∧ c ≤ '[') ∨ c = ']' then .ok (UInt8.ofNat (c.toNat - 64))
  else if ' ' ≤ c ∧ c ≤ '?' then .ok (UInt8.ofNat c.toNat)
  else .error ⟨c⟩

/-- The characters of a sequence of codes. -/
def decodeChars (bytes : List UInt8) : List Char :=
  bytes.map decodeByte

/-- Codes to text. -/
def decode (bytes : List UInt8) : String :=
  String.ofList (decodeChars bytes)

/-- A text that is already there with what some codes show behind it, one character after the
other. -/
def decodeOnto (text : String) (bytes : List UInt8) : String :=
  bytes.foldl (fun text b => text.push (decodeByte b)) text

/-- The texts after each of several chunks decoded onto one text. -/
def decodeChunks (text : String) : List (List UInt8) → List String
  | [] => []
  | chunk :: chunks => decodeOnto text chunk :: decodeChunks (decodeOnto text chunk) chunks

/-- Text to codes.  The first character without a code is refused. -/
def encode (text : String) : Except Error (List UInt8) :=
  text.toList.mapM encodeChar

end ScreenCode
end HexDiff
