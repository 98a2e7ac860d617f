import HexDiff.Text.Quoted
import HexDiff.Text.Utf8

/-!
# Packed base-40 text

Three characters of a forty-symbol alphabet fit into one sixteen-bit word, the first character
weighing most, and the word is stored with its low byte first.  So two bytes carry three
characters.

An alphabet gives every value below forty a symbol.  For encoding it may name further characters,
its aliases, with the value each of them stands for; an alias wins over a symbol, and of several
entries the first counts.
-/

namespace HexDiff
namespace Base40

/-- The number of symbols in an alphabet. -/
def radix : Nat := 40

/-- The characters in one word. -/
def charsPerUnit : Nat := 3

/-- The bytes of one word. -/
def bytesPerUnit : Nat := 2

/-- The largest word that encoding produces; larger words still decode. -/
def maxWord : UInt16 := 63999

/-- A character value. -/
abbrev Digit := Fin 40

/-- What can go wrong with an alphabet or with a text. -/
inductive Error where
  | inputLength (length unit : Nat)
  | character (c : Char)
  | characterValue (value : UInt8)
  | aliasValue (entry : Char) (value : UInt8)
  deriving DecidableEq, Repr

/-- The wording of an error. -/
def Error.message : Error → String
  | .inputLength length unit => s!"input length {length} is not a multiple of {unit}"
  | .character c => s!"invalid character to encode: {quoteChar c}"
  | .characterValue value => s!"invalid character value to decode: {value.toNat}"
  | .aliasValue entry value =>
    s!"alias {quoteChar entry} maps to out-of-range value {value.toNat}"

/-! ### Words -/

/-- One more value at the end of a word. -/
def extend (w : UInt16) (v : Digit) : UInt16 :=
  w * 40 + UInt16.ofNat v

/-- Three values in one word, the first one weighing most. -/
def pack (v₁ v₂ v₃ : Digit) : UInt16 :=
  extend (extend (extend 0 v₁) v₂) v₃

/-- The three values of a word.  A word above `maxWord` loses its excess in the first value. -/
def unpack (w : UInt16) : Digit × Digit × Digit :=
  (Fin.ofNat 40 (w.toNat / 1600), Fin.ofNat 40 (w.toNat / 40), Fin.ofNat 40 w.toNat)

/-- The three values of a word as bytes. -/
def valueBytes (w : UInt16) : List UInt8 :=
  [(w / 1600 % 40).toUInt8, (w / 40 % 40).toUInt8, (w % 40).toUInt8]

/-- A word as bytes, the low byte first. -/
def wordBytes (w : UInt16) : List UInt8 :=
  [w.toUInt8, (w >>> 8).toUInt8]

/-- The word stored in a low and a high byte. -/
def wordOfBytes (lo hi : UInt8) : UInt16 :=
  hi.toUInt16 * 256 + lo.toUInt16

/-! ### Words behind a text

A text that is already there is extended word by word.  If a word cannot be read, the text is cut
back to the size in bytes that it had before.
-/

/-- A text with the words of a byte sequence behind it, and what was wrong with the first of them
that could not be read.  The text was `size` bytes long in the beginning. -/
def appendUnits (read : UInt16 → Except Error (List Char)) (size : Nat) (text : String) :
    List UInt8 → String × Option Error
  | lo :: hi :: rest =>
    match read (wordOfBytes lo hi) with
    | .ok cs => appendUnits read size (text ++ String.ofList cs) rest
    | .error e => (cutBack text size, some e)
  | _ => (text, none)

/-! ### Alphabets -/

/-- Forty symbols and the aliases that encoding accepts beside them. -/
structure Alphabet where
  symbols : Vector Char 40
  aliases : List (Char × Digit)
  deriving DecidableEq

/-- The value of an alias, if it is in range. -/
def digitOfAlias (entry : Char × UInt8) : Except Error (Char × Digit) :=
  if h : entry.2.toNat < 40 then .ok (entry.1, ⟨entry.2.toNat, h⟩)
  else .error (.aliasValue entry.1 entry.2)

namespace Alphabet

/-- An alphabet from its parts.  The first alias with a value out of range is refused. -/
def ofParts? (symbols : Vector Char 40) (aliases : List (Char × UInt8)) :
    Except Error Alphabet := do
  let checked ← aliases.mapM digitOfAlias
  return ⟨symbols, checked⟩

/-- Space, the letters, the digits but zero, and four marks.  The null character and the middle dot
also stand for a space, and the digit zero for the letter it resembles. -/
def standard : Alphabet where
  symbols :=
    #v[' ', 'A', 'B', 'C', 'D', 'E', 'F', 'G', 'H', 'I', 'J', 'K', 'L', 'M', 'N', 'O', 'P',
      'Q', 'R', 'S', 'T', 'U', 'V', 'W', 'X', 'Y', 'Z', '1', '2', '3', '4', '5', '6', '7',
      '8', '9', '.', ',', '-', '\'']
  aliases := [('\x00', 0), ('\u00B7', 0), ('0', 15)]

variable (α : Alphabet)

/-- The value of a character: that of its first alias, else its first position among the
symbols. -/
def encodeChar (c : Char) : Except Error Digit :=
  match α.aliases.lookup c with
  | some v => .ok v
  | none =>
    match α.symbols.finIdxOf? c with
    | some v => .ok v
    | none => .error (.character c)

/-- The symbol of a value given as a byte. -/
def decodeChar (value : UInt8) : Except Error Char :=
  if h : value.toNat < 40 then .ok α.symbols[value.toNat]
  else .error (.characterValue value)

/-- Three characters in one word.  The first character without a value is refused. -/
def encodeUnit (c₁ c₂ c₃ : Char) : Except Error UInt16 := do
  let v₁ ← α.encodeChar c₁
  let v₂ ← α.encodeChar c₂
  let v₃ ← α.encodeChar c₃
  return pack v₁ v₂ v₃

/-- The three characters of a word. -/
def decodeWord (w : UInt16) : List Char :=
  let (v₁, v₂, v₃) := unpack w
  [α.symbols[v₁], α.symbols[v₂], α.symbols[v₃]]

/-- The three characters of a word, with each of its values looked up by itself. -/
def readWord (w : UInt16) : Except Error (List Char) :=
  (valueBytes w).mapM α.decodeChar

/-! ### Texts -/

/-- The bytes of a text, three characters at a time; a shorter rest is left out. -/
def encodeUnits : List Char → Except Error (List UInt8)
  | c₁ :: c₂ :: c₃ :: rest => do
    let w ← α.encodeUnit c₁ c₂ c₃
    let bytes ← encodeUnits rest
    return wordBytes w ++ bytes
  | _ => .ok []

/-- The characters of a byte sequence, two bytes at a time; an odd byte at the end is left out. -/
def decodeUnits : List UInt8 → List Char
  | lo :: hi :: rest => α.decodeWord (wordOfBytes lo hi) ++ decodeUnits rest
  | _ => []

/-- Text to bytes.  The length is counted in characters and checked before any of them is looked
up. -/
def encode (text : String) : Except Error (List UInt8) :=
  let cs := text.toList
  if cs.length % charsPerUnit ≠ 0 then .error (.inputLength cs.length charsPerUnit)
  else α.encodeUnits cs

/-- Bytes to text. -/
def decode (bytes : List UInt8) : Except Error String :=
  if bytes.length % bytesPerUnit ≠ 0 then .error (.inputLength bytes.length bytesPerUnit)
  else .ok (String.ofList (α.decodeUnits bytes))

/-! ### Decoding onto a text -/

/-- The text after some bytes, and why they were refused if they were. -/
def decodeInto (text : String) (bytes : List UInt8) : String × Option Error :=
  if bytes.length % bytesPerUnit ≠ 0 then (text, some (.inputLength bytes.length bytesPerUnit))
  else appendUnits α.readWord text.utf8ByteSize text bytes

/-- Chunks decoded one after the other onto one text.  Each chunk reports the text after it. -/
def decodeChunks (text : String) : List (List UInt8) → List (String × Option Error)
  | [] => []
  | chunk :: chunks =>
    let decoded := α.decodeInto text chunk
    decoded :: decodeChunks decoded.1 chunks

end Alphabet
end Base40
end HexDiff
