/-!
# Bytes of a text

Texts are written, and their lengths counted, in UTF-8.  Read back, bytes may turn out to be no text.
Then the first character that is none is told: where it begins, and how many of its bytes could
still be the beginning of one.
-/

namespace HexDiff

/-- The bytes of a text. -/
def utf8 (cs : List Char) : List UInt8 :=
  cs.flatMap String.utf8EncodeChar

/-- They are those that core encodes it in. -/
theorem utf8_toList (text : String) : utf8 text.toList = text.toUTF8.data.toList := by
  rw [String.toUTF8_eq_toByteArray, ← String.utf8Encode_toList, List.utf8Encode,
    List.toList_data_toByteArray, utf8]

/-! ### Texts cut back -/

/-- The characters that lie within the first `size` bytes. -/
def charsWithin (size : Nat) : List Char → List Char
  | [] => []
  | c :: cs => if c.utf8Size ≤ size then c :: charsWithin (size - c.utf8Size) cs else []

/-- A text cut back to its first `size` bytes. -/
def cutBack (text : String) (size : Nat) : String :=
  String.ofList (charsWithin size text.toList)

/-! ### Reading a text -/

/-- The first character that is none. -/
structure Utf8Error where
  index : Nat
  /-- How many bytes could be the beginning of a character, if one more that could not follows. -/
  length : Option Nat
  deriving DecidableEq, Repr

namespace Utf8Error

/-- The wording of an error. -/
def message (e : Utf8Error) : String :=
  match e.length with
  | some n => s!"invalid utf-8 sequence of {n} bytes from index {e.index}"
  | none => s!"incomplete utf-8 byte sequence from index {e.index}"

/-- The bytes that may follow a first byte, from where to where each of them, if it is one. -/
def tail? (b : UInt8) : Option (List (UInt8 × UInt8)) :=
  if b < 0x80 then some []
  else if b < 0xC2 then none
  else if b < 0xE0 then some [(0x80, 0xBF)]
  else if b = 0xE0 then some [(0xA0, 0xBF), (0x80, 0xBF)]
  else if b = 0xED then some [(0x80, 0x9F), (0x80, 0xBF)]
  else if b < 0xF0 then some [(0x80, 0xBF), (0x80, 0xBF)]
  else if b = 0xF0 then some [(0x90, 0xBF), (0x80, 0xBF), (0x80, 0xBF)]
  else if b < 0xF4 then some [(0x80, 0xBF), (0x80, 0xBF), (0x80, 0xBF)]
  else if b = 0xF4 then some [(0x80, 0x8F), (0x80, 0xBF), (0x80, 0xBF)]
  else none

/-- Behind `good` bytes of a character, the first that does not follow: how many bytes there are up
to it, or that they come to an end. -/
def inTail (good : Nat) : List (UInt8 × UInt8) → List UInt8 → Option (Option Nat)
  | [], _ => none
  | _ :: _, [] => some none
  | (low, high) :: ranges, b :: bytes =>
    if low ≤ b ∧ b ≤ high then inTail (good + 1) ranges bytes else some (some good)

/-- The first character from byte `index` on that is none. -/
def find (index : Nat) : List UInt8 → Utf8Error
  | [] => ⟨index, none⟩
  | b :: bytes =>
    match tail? b with
    | none => ⟨index, some 1⟩
    | some ranges =>
      match inTail 1 ranges bytes with
      | some length => ⟨index, length⟩
      | none => find (index + 1 + ranges.length) (bytes.drop ranges.length)
termination_by bytes => bytes.length
decreasing_by
  simp only [List.length_drop, List.length_cons]
  omega

end Utf8Error

/-- The text that some bytes are. -/
def readUtf8 (bytes : Array UInt8) : Except Utf8Error String :=
  match String.fromUTF8? ⟨bytes⟩ with
  | some text => .ok text
  | none => .error (.find 0 bytes.toList)

/-- The bytes of a text are read back. -/
theorem readUtf8_toUTF8 (text : String) : readUtf8 text.toUTF8.data = .ok text := by
  have hread : String.fromUTF8? ⟨text.toUTF8.data⟩ = some text := dif_pos text.isValidUTF8
  rw [readUtf8, hread]

end HexDiff
