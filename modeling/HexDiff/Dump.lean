import HexDiff.Comparer

/-!
# Dumps

A dump shows a range of one content in the columns of a difference report, without brackets.  Its
lines begin at multiples of the line length wherever the range begins, and the positions outside the
range are blank.  Overlays see the bytes of the range only.
-/

namespace HexDiff

/-- One line of a dump. -/
structure DumpRow where
  /-- The offset of the first position. -/
  base : Nat
  /-- The blank positions before the bytes. -/
  lead : Nat
  /-- The bytes shown. -/
  bytes : List UInt8
  deriving DecidableEq, Repr

namespace DumpRow

/-- Stands for a byte outside the range. -/
def blankByte : List Char := [' ', ' ']

/-- The cells of a row; those after the bytes are blank without being listed. -/
def cells (row : DumpRow) : List (Option UInt8) :=
  List.replicate row.lead none ++ row.bytes.map some

/-- A text with a row behind it, under flags none of which is set, and with its line break. -/
def textOnto (row : DumpRow) (style : LineStyle) (text : String) (flags : List Bool) :
    Except Hex.Overwide String := do
  let shown ← style.rowOnto text row.base blankByte row.cells flags row.bytes
  return shown.push '\n'

/-- What there is to log about a row. -/
def entries (row : DumpRow) (style : LineStyle) : List LogEntry :=
  (style.errors row.bytes).map .overlayError

end DumpRow

/-- The result of a dump: the number of lines or the error that ended it, the output with what has
been written, and the log. -/
structure DumpResult (σ : Type) where
  outcome : Except ReportError Nat
  output : σ
  log : Array LogEntry

namespace Dump

/-- Writes the rows of some bytes, the first of which stands `lead` positions after `base`.  The
first row takes what fits behind its blanks, each further one a whole line. -/
def writeRows {σ : Type} [Outlet σ] (style : LineStyle) (flags : List Bool)
    (lineLength base lead : Nat) (bytes : List UInt8) (lines : Nat) (output : σ)
    (log : Array LogEntry) : DumpResult σ :=
  if bytes = [] ∨ lineLength ≤ lead then ⟨.ok lines, output, log⟩
  else
    let row : DumpRow := ⟨base, lead, bytes.take (lineLength - lead)⟩
    match row.textOnto style "" flags with
    | .error e => ⟨.error (.overwide e), output, log⟩
    | .ok text =>
      let log' := log ++ row.entries style
      match Outlet.write output text.toList with
      | (.ok (), output') =>
        writeRows style flags lineLength (base + lineLength) 0 (bytes.drop (lineLength - lead))
          (lines + 1) output' log'
      | (.error fault, output') => ⟨.error (.fault fault), output', log'⟩
termination_by bytes.length
decreasing_by
  have : bytes.length ≠ 0 := by simp_all
  simp only [List.length_drop]
  omega

/-- The last offset that is shown of a content: the end of the wanted range, but no more than the
last byte. -/
def lastOffset (content : List UInt8) (last : Option Nat) : Nat :=
  (last.map (min · (content.length - 1))).getD (content.length - 1)

/-- Writes the bytes from `first` to `last`, both included, and counts the lines.  Without `last`
the range reaches to the end.  A range without bytes leaves no trace, in the log either. -/
def run {σ : Type} [Outlet σ] (layout : Layout) (content : List UInt8) (first : Nat)
    (last : Option Nat) (output : σ) : DumpResult σ :=
  match layout.check with
  | .error e => ⟨.error (.layout e), output, #[]⟩
  | .ok () =>
    let final := lastOffset content last
    if content = [] ∨ final < first then ⟨.ok 0, output, #[]⟩
    else
      let lead := first % layout.lineLength
      let result :=
        writeRows (.ofLayout layout) (List.replicate layout.lineLength false) layout.lineLength
          (first - lead) lead ((content.drop first).take (final + 1 - first)) 0 output #[]
      match result.outcome with
      | .ok lines => { result with log := result.log.push (.dumped lines first final) }
      | .error _ => result

end Dump
end HexDiff
