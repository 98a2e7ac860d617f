import HexDiff.Base40
import HexDiff.ScreenCode

/-!
# Text overlays

An overlay is a reading of a window of bytes as text.  It is written after the hex columns of a
line and sees the bytes that the window really holds, nothing else.  Four of them are given; beside
these, a line can have any others.

A given overlay has to show something for every byte it looks at, since a line must not lose its
shape because its bytes are no text.  So each of them has a stand-in: a mark for a byte, or for a
whole unit, that has no text form.
-/

namespace HexDiff

/-- A reading of bytes as text.  The packed readings come with their alphabet. -/
inductive Overlay where
  | screenCode
  | base40 (α : Base40.Alphabet)
  | base40Odd (α : Base40.Alphabet)
  | ascii
  /-- Any other reading, under a name of its own. -/
  | custom (label : String) (read : List UInt8 → List Char)

namespace Overlay

/-- Stands for a packed unit that cannot be decoded. -/
def errorMarker : List Char := ['<', 'E', '>']

/-- Stands for a byte that is not printable. -/
def nonPrintable : Char := '~'

/-- The name under which an overlay is known. -/
def name : Overlay → String
  | screenCode => "c64text"
  | base40 _ => "base40"
  | base40Odd _ => "base40-odd"
  | ascii => "ascii"
  | custom label _ => label

/-! ### Readings of bytes -/

/-- A byte as printable ASCII, its highest bit left out of account. -/
def asciiChar (b : UInt8) : Char :=
  let n := b.toNat % 128
  if 32 ≤ n ∧ n < 127 then Char.ofNat n else nonPrintable

/-- The units of packed text: two bytes each, and the byte left over if there is one. -/
def units : List UInt8 → List (List UInt8)
  | lo :: hi :: rest => [lo, hi] :: units rest
  | [b] => [[b]]
  | [] => []

/-- One more unit behind a text, which comes with the errors so far.  A unit that cannot be decoded
shows as an error. -/
def unitOnto (α : Base40.Alphabet) (shown : String × List Base40.Error) (unit : List UInt8) :
    String × List Base40.Error :=
  match α.decodeInto shown.1 unit with
  | (text, none) => (text, shown.2)
  | (text, some e) => (text ++ String.ofList errorMarker, shown.2 ++ [e])

/-- Packed text behind a text, unit by unit, and the errors of the units. -/
def packedOnto (α : Base40.Alphabet) (text : String) (bytes : List UInt8) :
    String × List Base40.Error :=
  (units bytes).foldl (unitOnto α) (text, [])

/-- A window without its first and its last byte: what packed text covers if it starts at an odd
offset. -/
def inner (window : List UInt8) : List UInt8 :=
  window.tail.dropLast

/-- A text with the reading of a window behind it, and the errors of the units that could not be
decoded. -/
def renderOnto : Overlay → String → List UInt8 → String × List Base40.Error
  | screenCode, text, window => (ScreenCode.decodeOnto text window, [])
  | base40 α, text, window => packedOnto α text window
  | base40Odd α, text, window =>
    if window.length < 2 then (text, []) else packedOnto α text (inner window)
  | ascii, text, window => (window.foldl (fun text b => text.push (asciiChar b)) text, [])
  | custom _ read, text, window => (text ++ String.ofList (read window), [])

/-- The text that an overlay shows for a window. -/
def render (o : Overlay) (window : List UInt8) : List Char :=
  (o.renderOnto "" window).1.toList

/-- The units of a window that an overlay could not decode. -/
def errors (o : Overlay) (window : List UInt8) : List Base40.Error :=
  (o.renderOnto "" window).2

end Overlay

/-! ### Choosing overlays -/

/-- Which of the four standard overlays are shown. -/
structure OverlaySet where
  screenCode : Bool := false
  base40 : Bool := false
  base40Odd : Bool := false
  ascii : Bool := false
  deriving DecidableEq, Repr

namespace OverlaySet

/-- The set encoded in the low four bits of a number; higher bits mean nothing. -/
def ofBits (n : Nat) : OverlaySet where
  screenCode := n.testBit 0
  base40 := n.testBit 1
  base40Odd := n.testBit 2
  ascii := n.testBit 3

/-- The number that encodes a set. -/
def toBits (s : OverlaySet) : Nat :=
  s.screenCode.toNat + 2 * s.base40.toNat + 4 * s.base40Odd.toNat + 8 * s.ascii.toNat

/-- The overlays of a set, in the order in which lines show them. -/
def toList (s : OverlaySet) : List Overlay :=
  (if s.screenCode then [.screenCode] else []) ++
    (if s.base40 then [.base40 .standard] else []) ++
    (if s.base40Odd then [.base40Odd .standard] else []) ++
    (if s.ascii then [.ascii] else [])

end OverlaySet
end HexDiff
