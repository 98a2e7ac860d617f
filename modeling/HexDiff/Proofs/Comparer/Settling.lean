import HexDiff.Proofs.Chains
import HexDiff.Proofs.Comparer.Shape
import HexDiff.Proofs.Overlays.Rendering

/-!
# Reporting a block

The report on a block is put together in the line of the comparer: the line is cleared, what
separates the block from the one before it comes first, and then the two lines of the block are
written behind it.  `Comparer.blockReport` is the text that this comes to.  It does not depend on
what the line held, and it is what is given to the output, in one piece (`Comparer.settle_of_differs`).

Where offsets would need a column that cannot be, nothing is given to the output
(`Comparer.settle_of_overwide`).  A block that does not differ is passed over
(`Comparer.settle_of_not_differs`).
-/

namespace HexDiff

/-! ### Texts and entries -/

namespace Block

/-- The report on a differing block, after the dots that connect it to the block before. -/
def report (block : Block) (style : LineStyle) (connector : List Char) (offset : Nat) :
    List Char :=
  connector ++ '\n' :: style.line offset block.left block.mask.flags ++
    '\n' :: style.line offset block.right block.mask.flags ++ ['\n']

/-- All that there is to log about a differing block. -/
def entries (block : Block) (style : LineStyle) (offset : Nat) : List LogEntry :=
  block.heading offset ++ block.overlayErrors style

variable {style : LineStyle}

/-- The two lines of a block behind a text. -/
theorem linesOnto_eq (h : style.offsetWidth ≤ Hex.maxWidth) (block : Block) (text : String)
    (offset : Nat) :
    block.linesOnto style text offset =
      .ok (text ++ String.ofList (style.line offset block.left block.mask.flags ++
        '\n' :: style.line offset block.right block.mask.flags ++ ['\n'])) := by
  rw [linesOnto, LineStyle.lineOnto, LineStyle.rowOnto_eq h, ok_bind, LineStyle.lineOnto,
    LineStyle.rowOnto_eq h, ok_bind]
  simp only [LineStyle.line, String.push_eq_append, String.singleton_eq_ofList,
    ← String.ofList_append, String.append_assoc, List.append_assoc, List.cons_append,
    List.nil_append]
  rfl

/-- There are none if their offset has no column. -/
theorem linesOnto_of_overwide (h : Hex.maxWidth < style.offsetWidth) (block : Block)
    (text : String) (offset : Nat) :
    block.linesOnto style text offset = .error ⟨style.offsetWidth⟩ := by
  rw [linesOnto, LineStyle.lineOnto, LineStyle.rowOnto_of_overwide h]
  rfl

end Block

/-! ### What becomes of a block -/

namespace Comparer

/-- The piece of text that a block adds to the report. -/
def blockReport (c : Comparer) (p : Progress) (block : Block) : List Char :=
  block.report c.style (if p.afterDifference then c.connector else []) p.offset

/-- The piece of report for a block depends on the layout and the style only. -/
theorem blockReport_of_sameShape {c d : Comparer} (h : c.SameShape d) (p : Progress)
    (block : Block) : d.blockReport p block = c.blockReport p block := by
  unfold blockReport connector
  rw [h.layout, h.style]

variable {σ : Type} [Outlet σ] {c : Comparer} {block : Block}

/-- A block that does not differ is passed over. -/
theorem settle_of_not_differs (h : ¬block.mask.differs) (p : Progress) (output : σ)
    (log : Array LogEntry) : c.settle p block output log = .ok (c, output, log) :=
  if_neg h

/-- A block that differs is written in one piece.  Afterwards the line holds this piece. -/
theorem settle_of_differs (hwidth : c.style.offsetWidth ≤ Hex.maxWidth)
    (h : block.mask.differs) (p : Progress) (output : σ) (log : Array LogEntry) :
    c.settle p block output log =
      match Outlet.write output (c.blockReport p block) with
      | (.ok (), output') =>
        .ok (c.reline (String.ofList (c.blockReport p block)), output',
          log ++ block.entries c.style p.offset)
      | (.error fault, output') =>
        .error ⟨.error (.fault fault), output', log ++ block.entries c.style p.offset,
          c.reline (String.ofList (c.blockReport p block))⟩ := by
  have hentries : log ++ block.heading p.offset ++ block.overlayErrors c.style =
      log ++ block.entries c.style p.offset :=
    Array.ext' (by simp [Block.entries])
  have hpiece : (c.separate p).line ++ String.ofList (c.style.line p.offset block.left
      block.mask.flags ++ '\n' :: c.style.line p.offset block.right block.mask.flags ++ ['\n']) =
      String.ofList (c.blockReport p block) := by
    rw [separate_eq, reline, ← String.ofList_append, blockReport, Block.report]
    simp only [List.append_assoc, List.cons_append, List.nil_append]
  rw [settle, if_pos h]
  dsimp only
  rw [Block.linesOnto_eq hwidth, hentries, hpiece, separate_eq]
  simp only [String.toList_ofList]
  rfl

/-- Where there is no column for its offset, it ends the run, and nothing is written. -/
theorem settle_of_overwide (hwidth : Hex.maxWidth < c.style.offsetWidth)
    (h : block.mask.differs) (p : Progress) (output : σ) (log : Array LogEntry) :
    c.settle p block output log =
      .error ⟨.error (.overwide ⟨c.style.offsetWidth⟩), output, log ++ block.heading p.offset,
        c.separate p⟩ := by
  rw [settle, if_pos h]
  dsimp only
  rw [Block.linesOnto_of_overwide hwidth]

end Comparer
end HexDiff
