import HexDiff.Layout

/-!
# Lines

A line shows one window of bytes: its offset, a column for each position, and the overlays.

```text
000040:   41 42(43 44)45 46 47 48   ABCDEFGH
```

Positions are grouped by eight and by sixteen with additional spaces.  A run of differing positions
is put in brackets; a bracket takes the place of the space that would stand there, so that lines
with the same number of positions have the same width.  The grouping spaces come after a closing
bracket and before an opening one, and a last column holds the closing bracket of a run that
reaches the end of the line.

Lines are written behind a text that is there already.  A style may have any width for its offsets;
with one that is no width for a column, there are no lines.
-/

namespace HexDiff

/-- How windows become lines. -/
structure LineStyle where
  /-- The number of positions of a line. -/
  capacity : Nat
  /-- The least number of digits of an offset. -/
  offsetWidth : Nat
  /-- The overlays after the columns, in this order. -/
  overlays : List Overlay

namespace LineStyle

/-- Stands for a byte past the end of a short window. -/
def missingByte : List Char := ['-', '-']

/-- The style of a layout. -/
def ofLayout (layout : Layout) : LineStyle :=
  ⟨layout.lineLength, layout.offsetWidth, layout.overlays.toList⟩

/-! ### Columns -/

/-- What stands before the digits of position `i`; `before` and `here` tell whether the position
before it and the position itself differ. -/
def gap (i : Nat) (before here : Bool) : List Char :=
  (if before && !here then [')'] else []) ++
    (if i % 8 = 0 then [' '] else []) ++
    (if i % 16 = 0 then [' '] else []) ++
    (if here && !before then ['('] else if before && !here then [] else [' '])

/-- The two characters of a cell; `blank` stands for a byte that is not there. -/
def cellText (blank : List Char) : Option UInt8 → List Char
  | some b => Hex.ofByte b
  | none => blank

/-- The columns from position `i` on: a cell for each flag, then the last column. -/
def columns (blank : List Char) (i : Nat) (before : Bool) :
    List Bool → List (Option UInt8) → List Char
  | [], _ => [if before then ')' else ' ']
  | here :: flags, cells =>
    gap i before here ++ cellText blank cells.head?.join ++
      columns blank (i + 1) here flags cells.tail

/-! ### Whole lines -/

/-- A text with the overlays of some bytes behind it, each after two spaces. -/
def overlaysOnto (style : LineStyle) (text : String) (bytes : List UInt8) : String :=
  style.overlays.foldl (fun text o => (o.renderOnto (text ++ "  ") bytes).1) text

/-- A text with a line behind it, without its line break: the offset, the cells under their flags,
and the overlays of `bytes`. -/
def rowOnto (style : LineStyle) (text : String) (offset : Nat) (blank : List Char)
    (cells : List (Option UInt8)) (flags : List Bool) (bytes : List UInt8) :
    Except Hex.Overwide String := do
  let begun ← Hex.paddedOnto text style.offsetWidth offset
  return style.overlaysOnto
    (begun ++ String.ofList (':' :: columns blank 0 false flags cells)) bytes

/-- A text with the line of a window under a mask behind it. -/
def lineOnto (style : LineStyle) (text : String) (offset : Nat) (window : List UInt8)
    (flags : List Bool) : Except Hex.Overwide String :=
  style.rowOnto text offset missingByte (window.map some) flags window

/-- The units of a window that the overlays of a line could not decode. -/
def errors (style : LineStyle) (window : List UInt8) : List Base40.Error :=
  style.overlays.flatMap (·.errors window)

/-- One line of diagnostics about a style. -/
def describe (style : LineStyle) : String :=
  let names := ", ".intercalate (style.overlays.map fun o => "\"" ++ o.name ++ "\"")
  "LineRenderer \x7b capacity: " ++ toString style.capacity ++ ", offset_width: " ++
    toString style.offsetWidth ++ ", overlays: [" ++ names ++ "] \x7d"

end LineStyle
end HexDiff
