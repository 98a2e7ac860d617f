import HexDiff.Proofs.Base40.RoundTrip
import HexDiff.Proofs.Columns
import HexDiff.Proofs.Comparer.Shown
import HexDiff.Proofs.Dump.Rows

/-!
# Reports are printable

Whatever the bytes of a content are, they cannot end a line of a report or send anything else than
printable characters to a terminal.  Digits, brackets, dots and marks are printable anyway.  The
overlays are readings of the bytes, and each of them has something printable for every byte, as long
as an alphabet that it comes with has printable symbols (`Overlay.allPrintable_render`).

So a line has no line break of its own (`LineStyle.allPrintable_row`), and the line breaks of a
report can be counted: three for each block that it shows, and one for each line of a dump
(`report_printable`).
-/

namespace HexDiff

/-! ### Columns -/

/-- The digits are printable. -/
theorem Hex.printable_of_digitValue? {c : Char} (h : (digitValue? c).isSome) : Printable c := by
  unfold digitValue? at h
  unfold Printable
  dsimp only at h
  split at h
  · omega
  · split at h
    · omega
    · split at h
      · omega
      · cases h

/-- The digits of a byte are printable. -/
theorem Hex.allPrintable_ofByte (b : UInt8) : AllPrintable (ofByte b) :=
  fun _ hc => printable_of_digitValue? (isSome_digitValue?_of_mem_ofByte hc)

/-- The digits of a number in a column are printable. -/
theorem Hex.allPrintable_padded (width n : Nat) : AllPrintable (padded width n) :=
  fun _ hc => printable_of_digitValue? (isSome_digitValue?_of_mem_padded hc)

namespace LineStyle

/-- What stands before the digits of a position is spaces and brackets. -/
theorem allPrintable_gap (i : Nat) (before here : Bool) : AllPrintable (gap i before here) := by
  have hspace : ∀ m, AllPrintable (if i % m = 0 then [' '] else []) := by
    intro m
    split <;> decide
  have hclosing : AllPrintable (if before && !here then [')'] else []) := by
    split <;> decide
  have hopening : AllPrintable
      (if here && !before then ['('] else if before && !here then [] else [' ']) := by
    split
    · decide
    · split <;> decide
  simp only [gap, AllPrintable.append_iff]
  exact ⟨⟨⟨hclosing, hspace 8⟩, hspace 16⟩, hopening⟩

/-- Columns are printable if the text for a missing byte is. -/
theorem allPrintable_columns {blank : List Char} (h : AllPrintable blank) (i : Nat)
    (before : Bool) (flags : List Bool) (cells : List (Option UInt8)) :
    AllPrintable (columns blank i before flags cells) := by
  induction flags generalizing i before cells with
  | nil =>
    have hlast : ∀ b : Bool, AllPrintable [if b then ')' else ' '] := by decide
    exact hlast before
  | cons here flags ih =>
    have hcell : ∀ cell, AllPrintable (cellText blank cell) := by
      intro cell
      cases cell with
      | none => exact h
      | some b => exact Hex.allPrintable_ofByte b
    simp only [columns, AllPrintable.append_iff]
    exact ⟨⟨allPrintable_gap i before here, hcell _⟩, ih (i + 1) here cells.tail⟩

end LineStyle

/-! ### Overlays -/

/-- What a screen code shows is printable. -/
theorem ScreenCode.printable_decodeByte (b : UInt8) : Printable (decodeByte b) := by
  have hplaceholder : Printable placeholder := by decide
  unfold decodeByte
  split
  · exact hplaceholder
  · split
    · next hlow =>
      have hlt : b.toNat < 0x20 := UInt8.lt_iff_toNat_lt.mp hlow
      exact printable_ofNat (by omega) (by omega)
    · split
      · next hlow hmiddle =>
        have hge : ¬b.toNat < 0x20 := fun hlt => hlow (UInt8.lt_iff_toNat_lt.mpr hlt)
        have hlt : b.toNat < 0x40 := UInt8.lt_iff_toNat_lt.mp hmiddle
        exact printable_ofNat (by omega) (by omega)
      · exact hplaceholder

namespace Overlay

/-- A byte read as ASCII is printable. -/
theorem printable_asciiChar (b : UInt8) : Printable (asciiChar b) := by
  unfold asciiChar
  dsimp only
  split
  · next hrange => exact printable_ofNat (by omega) (by omega)
  · decide

/-- The overlay has printable symbols, if it comes with an alphabet.  A reading that is not one of
the four has to show what is printable by itself. -/
def PrintableSymbols : Overlay → Prop
  | screenCode => True
  | base40 α => ∀ v, Printable (α.symbol v)
  | base40Odd α => ∀ v, Printable (α.symbol v)
  | ascii => True
  | custom _ read => ∀ window, AllPrintable (read window)

/-- Packed text is printable if the symbols are. -/
theorem allPrintable_packedText {α : Base40.Alphabet} (h : ∀ v, Printable (α.symbol v))
    (bytes : List UInt8) : AllPrintable (packedText α bytes) := by
  fun_induction packedText α bytes with
  | case1 lo hi rest ih =>
    simp only [Base40.Alphabet.decodeWord_eq, AllPrintable.append_iff, AllPrintable.cons_iff]
    exact ⟨⟨h _, h _, h _, AllPrintable.nil⟩, ih⟩
  | case2 => decide
  | case3 => exact AllPrintable.nil

/-- What an overlay shows for a window is printable. -/
theorem allPrintable_render {o : Overlay} (h : o.PrintableSymbols) (window : List UInt8) :
    AllPrintable (o.render window) := by
  rw [render_eq]
  cases o with
  | screenCode =>
    intro c hc
    obtain ⟨b, -, rfl⟩ := List.mem_map.mp hc
    exact ScreenCode.printable_decodeByte b
  | base40 α => exact allPrintable_packedText h window
  | base40Odd α => exact allPrintable_packedText h (inner window)
  | ascii =>
    intro c hc
    obtain ⟨b, -, rfl⟩ := List.mem_map.mp hc
    exact printable_asciiChar b
  | custom label read => exact h window

end Overlay

/-- The symbols of the standard alphabet are printable. -/
theorem Base40.printable_symbol_standard (v : Digit) : Printable (Alphabet.standard.symbol v) := by
  revert v
  decide +kernel

/-- All overlays that a set can have come with printable symbols. -/
theorem OverlaySet.printableSymbols_of_mem {s : OverlaySet} {o : Overlay} (h : o ∈ s.toList) :
    o.PrintableSymbols := by
  rcases cases_of_mem h with rfl | rfl | rfl | rfl
  · exact trivial
  · exact Base40.printable_symbol_standard
  · exact Base40.printable_symbol_standard
  · exact trivial

/-! ### Lines -/

/-- A line, of whatever cells and under whatever flags, is printable. -/
theorem LineStyle.allPrintable_row {style : LineStyle}
    (hstyle : ∀ o ∈ style.overlays, o.PrintableSymbols) {blank : List Char}
    (hblank : AllPrintable blank) (offset : Nat) (cells : List (Option UInt8))
    (flags : List Bool) (bytes : List UInt8) :
    AllPrintable (style.row offset blank cells flags bytes) := by
  have hoverlays : AllPrintable (style.overlayText bytes) := by
    refine AllPrintable.flatMap fun o ho => ?_
    have hspace : Printable ' ' := by decide
    simp only [AllPrintable.cons_iff]
    exact ⟨hspace, hspace, o.allPrintable_render (hstyle o ho) bytes⟩
  have hcolon : Printable ':' := by decide
  simp only [row, AllPrintable.append_iff, AllPrintable.cons_iff]
  exact ⟨⟨Hex.allPrintable_padded _ _, hcolon, allPrintable_columns hblank _ _ _ _⟩, hoverlays⟩

/-- What separates blocks is dots. -/
theorem allPrintable_connectorText (layout : Layout) (left right : List UInt8) (k : Nat) :
    AllPrintable (connectorText layout left right k) := by
  have hdot : Printable '.' := by decide
  unfold connectorText
  split
  · intro c hc
    rw [List.eq_of_mem_replicate hc]
    exact hdot
  · exact AllPrintable.nil

/-- The lines of a report are printable. -/
theorem allPrintable_of_mem_reportLines {layout : Layout} {style : LineStyle}
    (hstyle : ∀ o ∈ style.overlays, o.PrintableSymbols) {left right : List UInt8}
    {line : List Char} (h : line ∈ reportLines layout style left right) : AllPrintable line := by
  have hmissing : AllPrintable LineStyle.missingByte := by decide
  obtain ⟨shown, hshown, hline⟩ := List.mem_flatMap.mp h
  obtain ⟨k, -, rfl⟩ := List.mem_map.mp hshown
  simp only [ShownBlock.lines, List.mem_cons, List.not_mem_nil, or_false] at hline
  rcases hline with rfl | rfl | rfl
  · exact allPrintable_connectorText layout left right k
  · exact LineStyle.allPrintable_row hstyle hmissing _ _ _ _
  · exact LineStyle.allPrintable_row hstyle hmissing _ _ _ _

/-- The lines of a dump are printable. -/
theorem Dump.allPrintable_of_mem_lines {layout : Layout} {content : List UInt8} {first : Nat}
    {last : Option Nat} {line : List Char} (h : line ∈ lines layout content first last) :
    AllPrintable line := by
  have hblank : AllPrintable DumpRow.blankByte := by decide
  obtain ⟨row, -, rfl⟩ := List.mem_map.mp h
  exact LineStyle.allPrintable_row (fun _ => OverlaySet.printableSymbols_of_mem) hblank _ _ _ _

/-! ### Whole reports -/

/-- **Reports are printable.**  Take any valid layout, with whatever overlays.  A comparison of any
two contents and a dump of any range of any content come to an end, and every character of their
texts is a line break or a printable character, whatever the bytes are.  The report on two contents
has three line breaks for each block that differs, and a dump has as many as it counts lines. -/
theorem report_printable {layout : Layout} (hvalid : layout.Valid) :
    (∀ left right : List UInt8, ∃ (result : RunResult String) (stats : Stats),
      compareBytes layout left right "" = .ok result ∧ result.outcome = .ok stats ∧
        diffText layout left right = .ok result.output ∧
        (∀ c ∈ result.output.toList, c = '\n' ∨ Printable c) ∧
        result.output.toList.count '\n' = 3 * stats.differingBlocks ∧
        stats.differingBlocks = (differingBlocks layout.lineLength left right).length) ∧
      ∀ (content : List UInt8) (first : Nat) (last : Option Nat),
        let dump := Dump.run layout content first last ""
        (∃ lines, dump.outcome = .ok lines ∧ dump.output.toList.count '\n' = lines) ∧
          ∀ c ∈ dump.output.toList, c = '\n' ∨ Printable c := by
  constructor
  · intro left right
    obtain ⟨result, hresult, houtcome, houtput⟩ := exists_compareBytes_text_eq hvalid left right
    have hlines : ∀ line ∈ reportLines layout (.ofLayout layout) left right, AllPrintable line :=
      fun _ => allPrintable_of_mem_reportLines fun _ => OverlaySet.printableSymbols_of_mem
    have htext : result.output.toList =
        unlines (reportLines layout (.ofLayout layout) left right) := by
      rw [houtput, String.toList_ofList, reportText_eq_unlines]
    refine ⟨result, _, hresult, houtcome, ?_, ?_, ?_, (length_differingBlocks hvalid.1).symm⟩
    · rw [diffText_of_valid hvalid, houtput]
    · rw [htext]
      exact mem_unlines hlines
    · -- no line has a break of its own, so the breaks are those that end the lines
      rw [htext, count_unlines fun line hline => (hlines line hline).newline_notMem,
        length_reportLines, length_differingBlocks hvalid.1]
  · intro content first last dump
    obtain ⟨houtcome, houtput⟩ := Dump.run_text hvalid content first last
    have hlines : ∀ line ∈ Dump.lines layout content first last, AllPrintable line :=
      fun _ => Dump.allPrintable_of_mem_lines
    have htext : dump.output.toList = unlines (Dump.lines layout content first last) := by
      rw [houtput, String.toList_ofList]
    constructor
    · refine ⟨_, houtcome, ?_⟩
      rw [htext, count_unlines fun line hline => (hlines line hline).newline_notMem]
    · rw [htext]
      exact mem_unlines hlines

/-- Bytes that would clear a terminal, begin a line, or end a text, under all four overlays. -/
theorem report_printable_hostile :
    (⟨4, 4, .ofBits 15⟩ : Layout).Valid ∧
      (∃ text, diffText ⟨4, 4, .ofBits 15⟩ [0x1B, 0x63, 0x0A, 0x00] [0x0D, 0xFF, 0x80] = .ok text ∧
        ∀ c ∈ text.toList, c = '\n' ∨ Printable c) ∧
      ∀ c ∈ (Dump.run ⟨4, 4, .ofBits 15⟩ [0x1B, 0x63, 0x0A, 0x00, 0x7F] 1 none "").output.toList,
        c = '\n' ∨ Printable c := by
  have hvalid : (⟨4, 4, .ofBits 15⟩ : Layout).Valid := by decide
  obtain ⟨hreport, hdump⟩ := report_printable hvalid
  obtain ⟨result, stats, -, -, htext, hprintable, -⟩ :=
    hreport [0x1B, 0x63, 0x0A, 0x00] [0x0D, 0xFF, 0x80]
  exact ⟨hvalid, ⟨_, htext, hprintable⟩, (hdump [0x1B, 0x63, 0x0A, 0x00, 0x7F] 1 none).2⟩

end HexDiff
