import HexDiff.Proofs.Comparer.Report
import HexDiff.Proofs.TextLines

/-!
# What a report shows

A report shows the blocks that differ, in their order, and takes three lines for each of them: one
that separates it from what is before it, and the lines of its two windows (`ShownBlock`).  The
report is these lines and nothing else (`reportText_eq_unlines`).

Which of the two contents is which shows in the order of the two lines only.  The flags of a block,
what separates it from the block before it, and the blocks that differ are the same if the contents
are exchanged.  So a comparison of exchanged contents writes the same report with the two lines of
each block exchanged (`run_of_exchanged`).
-/

namespace HexDiff

/-! ### Shown blocks -/

/-- The lines that a report takes for a block. -/
structure ShownBlock where
  separator : List Char
  upper : List Char
  lower : List Char
  deriving DecidableEq, Repr

namespace ShownBlock

/-- The three lines, from top to bottom. -/
def lines (shown : ShownBlock) : List (List Char) :=
  [shown.separator, shown.upper, shown.lower]

/-- There are three lines. -/
theorem length_lines (shown : ShownBlock) : shown.lines.length = 3 := rfl

/-- The three lines with their line breaks. -/
def text (shown : ShownBlock) : List Char :=
  unlines shown.lines

/-- The block with its upper line below its lower one. -/
def swap (shown : ShownBlock) : ShownBlock :=
  { shown with upper := shown.lower, lower := shown.upper }

end ShownBlock

/-- What separates the lines of block `k`, if it differs, from those of the block before it. -/
def connectorText (layout : Layout) (left right : List UInt8) (k : Nat) : List Char :=
  if 0 < k ∧ BlockDiffers layout.lineLength left right (k - 1) then
    List.replicate layout.offsetWidth '.'
  else []

/-- The lines for block `k` of two contents. -/
def shownBlock (layout : Layout) (style : LineStyle) (left right : List UInt8) (k : Nat) :
    ShownBlock :=
  let n := layout.lineLength
  let flags := Mask.flagsOf n (window n left k) (window n right k)
  { separator := connectorText layout left right k
    upper := style.line (k * n) (window n left k) flags
    lower := style.line (k * n) (window n right k) flags }

/-- The numbers of the blocks that differ, in their order. -/
def differingBlocks (lineLength : Nat) (left right : List UInt8) : List Nat :=
  (List.range (blockCount lineLength left right)).filter
    (BlockDiffers lineLength left right ·)

/-- All that a report shows. -/
def shownBlocks (layout : Layout) (style : LineStyle) (left right : List UInt8) :
    List ShownBlock :=
  (differingBlocks layout.lineLength left right).map (shownBlock layout style left right)

variable {layout : Layout} {style : LineStyle} {left right : List UInt8} {k : Nat}

/-- The numbers are those of all blocks that differ. -/
theorem mem_differingBlocks {lineLength : Nat} (h : 1 ≤ lineLength) :
    k ∈ differingBlocks lineLength left right ↔ BlockDiffers lineLength left right k := by
  rw [differingBlocks, List.mem_filter, List.mem_range, decide_eq_true_iff]
  exact ⟨And.right, fun hk => ⟨hk.lt h, hk⟩⟩

/-- There are as many of them as a comparison counts. -/
theorem length_differingBlocks {lineLength : Nat} (h : 1 ≤ lineLength) :
    (differingBlocks lineLength left right).length =
      (Stats.ofContents lineLength left right).differingBlocks := by
  unfold Stats.ofContents
  rw [image_differingPositions h, ← Nat.count_eq_card_filter_range]
  exact List.countP_eq_length_filter.symm

/-- The text for a block that differs. -/
theorem blockText_of_blockDiffers (h : BlockDiffers layout.lineLength left right k) :
    blockText layout style left right k = (shownBlock layout style left right k).text := by
  have hne : ¬window layout.lineLength left k = window layout.lineLength right k := h
  unfold blockText ShownBlock.text ShownBlock.lines shownBlock
  simp only [if_neg hne, unlines_cons, List.append_assoc, List.cons_append]
  rfl

/-- The texts for some blocks are the texts for those of them that differ. -/
theorem flatMap_blockText (layout : Layout) (style : LineStyle) (left right : List UInt8)
    (ks : List Nat) :
    ks.flatMap (blockText layout style left right) =
      ((ks.filter (BlockDiffers layout.lineLength left right ·)).map
        (shownBlock layout style left right)).flatMap ShownBlock.text := by
  induction ks with
  | nil => rfl
  | cons k ks ih =>
    by_cases hdiffers : BlockDiffers layout.lineLength left right k
    · rw [List.filter_cons, if_pos (decide_eq_true hdiffers), List.map_cons, List.flatMap_cons,
        List.flatMap_cons, ih, blockText_of_blockDiffers hdiffers]
    · rw [List.filter_cons, if_neg (by simpa using hdiffers), List.flatMap_cons, ih,
        blockText_eq_nil_iff.mpr hdiffers, List.nil_append]

/-- A report is the text of the blocks that it shows. -/
theorem reportText_eq_flatMap_text (layout : Layout) (style : LineStyle)
    (left right : List UInt8) :
    reportText layout style left right =
      (shownBlocks layout style left right).flatMap ShownBlock.text :=
  flatMap_blockText layout style left right _

/-! ### The lines of a report -/

/-- The lines of the blocks that a report shows, from top to bottom. -/
def reportLines (layout : Layout) (style : LineStyle) (left right : List UInt8) :
    List (List Char) :=
  (shownBlocks layout style left right).flatMap ShownBlock.lines

/-- A report is its lines and nothing else. -/
theorem reportText_eq_unlines (layout : Layout) (style : LineStyle) (left right : List UInt8) :
    reportText layout style left right = unlines (reportLines layout style left right) := by
  rw [reportText_eq_flatMap_text, reportLines, unlines_flatMap]
  rfl

/-- Three lines are shown for each block that differs. -/
theorem length_reportLines (layout : Layout) (style : LineStyle) (left right : List UInt8) :
    (reportLines layout style left right).length =
      3 * (differingBlocks layout.lineLength left right).length := by
  rw [reportLines, length_flatMap_of_length ShownBlock.length_lines, shownBlocks, List.length_map]

/-- The three lines of a block stand together, and their place tells which block it is. -/
theorem getElem?_reportLines {j i : Nat}
    (h : (differingBlocks layout.lineLength left right)[j]? = some k) (hi : i < 3) :
    (reportLines layout style left right)[3 * j + i]? =
      (shownBlock layout style left right k).lines[i]? := by
  have hshown : (shownBlocks layout style left right)[j]? =
      some (shownBlock layout style left right k) := by
    rw [shownBlocks, List.getElem?_map, h, Option.map_some]
  exact getElem?_flatMap_of_length ShownBlock.length_lines hshown hi

/-! ### Exchanged contents -/

/-- The counters with those of the two sides exchanged. -/
def Stats.swap (stats : Stats) : Stats :=
  { stats with leftLength := stats.rightLength, rightLength := stats.leftLength }

/-- Exchanged contents have as many blocks. -/
theorem blockCount_comm (lineLength : Nat) (left right : List UInt8) :
    blockCount lineLength right left = blockCount lineLength left right := by
  rw [blockCount, blockCount, Nat.max_comm]

/-- A block differs if its windows are exchanged, too. -/
theorem blockDiffers_comm {lineLength : Nat} :
    BlockDiffers lineLength right left k ↔ BlockDiffers lineLength left right k :=
  ne_comm

/-- Exchanged contents differ in the same blocks. -/
theorem differingBlocks_comm (lineLength : Nat) (left right : List UInt8) :
    differingBlocks lineLength right left = differingBlocks lineLength left right := by
  unfold differingBlocks
  rw [blockCount_comm]
  refine List.filter_congr fun k _ => ?_
  rw [decide_eq_decide]
  exact blockDiffers_comm

/-- Exchanged contents differ at the same positions. -/
theorem differingPositions_comm (left right : List UInt8) :
    differingPositions right left = differingPositions left right := by
  ext i
  rw [mem_differingPositions, mem_differingPositions]
  exact ne_comm

/-- The counters of exchanged contents. -/
theorem Stats.ofContents_comm (lineLength : Nat) (left right : List UInt8) :
    Stats.ofContents lineLength right left = (Stats.ofContents lineLength left right).swap := by
  unfold ofContents
  rw [blockCount_comm, differingPositions_comm]
  rfl

/-- What is shown of a block of exchanged contents. -/
theorem shownBlock_comm (layout : Layout) (style : LineStyle) (left right : List UInt8)
    (k : Nat) :
    shownBlock layout style right left k = (shownBlock layout style left right k).swap := by
  have hconnector : connectorText layout right left k = connectorText layout left right k := by
    unfold connectorText
    simp only [blockDiffers_comm]
  have hflags := Mask.flagsOf_comm layout.lineLength (window layout.lineLength left k)
    (window layout.lineLength right k)
  simp only [shownBlock, ShownBlock.swap, hconnector, hflags]

/-- A report on exchanged contents shows the same blocks, with their lines exchanged. -/
theorem shownBlocks_comm (layout : Layout) (style : LineStyle) (left right : List UInt8) :
    shownBlocks layout style right left =
      (shownBlocks layout style left right).map ShownBlock.swap := by
  unfold shownBlocks
  rw [differingBlocks_comm, List.map_map]
  exact List.map_congr_left fun k _ => shownBlock_comm layout style left right k

namespace Comparer

/-- **Exchanged contents.**  Two comparers of one layout and one style, whatever they have been used
for before, compare the same two contents, the second one with the contents exchanged, on outputs
that refuse nothing.  Both end in the same way.  Their counters differ in the order of the two lengths
only, and what they write is the same sequence of blocks, with the same separators and with the same
two lines for each block in opposite order.  If there is a column for the offsets of the style, both
come to an end, and the blocks are those that differ. -/
theorem run_of_exchanged {c d : Comparer} (hc : Reachable layout style c)
    (hd : Reachable layout style d) (left right : List UInt8) {σ : Type} [Outlet σ]
    (view : Outlet.Lossless σ) {output output' : σ} (hopen : view.Open output)
    (hopen' : view.Open output') :
    let straight := c.run (.ofBytes left) (.ofBytes right) output
    let exchanged := d.run (.ofBytes right) (.ofBytes left) output'
    ∃ blocks : List ShownBlock,
      exchanged.outcome = straight.outcome.map Stats.swap ∧
      view.arrived straight.output = view.arrived output ++
        (String.ofList (blocks.flatMap ShownBlock.text)).toUTF8.data.toList ∧
      view.arrived exchanged.output = view.arrived output' ++
        (String.ofList ((blocks.map ShownBlock.swap).flatMap ShownBlock.text)).toUTF8.data.toList ∧
      (style.offsetWidth ≤ Hex.maxWidth →
        (∃ stats, straight.outcome = .ok stats) ∧
          blocks = (differingBlocks layout.lineLength left right).map
            (shownBlock layout style left right)) := by
  intro straight exchanged
  simp only [← utf8_toList, String.toList_ofList]
  by_cases hshow : style.CanShow left right
  · obtain ⟨houtcome, harrived⟩ := run_of_lossless hc.fits (Source.delivers_ofBytes left)
      (Source.delivers_ofBytes right) hshow view hopen
    obtain ⟨houtcome', harrived'⟩ := run_of_lossless hd.fits (Source.delivers_ofBytes right)
      (Source.delivers_ofBytes left) (hshow.imp_right Eq.symm) view hopen'
    rw [reportText_eq_flatMap_text] at harrived harrived'
    rw [Stats.ofContents_comm] at houtcome'
    rw [shownBlocks_comm] at harrived'
    refine ⟨shownBlocks layout style left right, ?_, harrived, harrived',
      fun _ => ⟨⟨_, houtcome⟩, rfl⟩⟩
    simp only [straight, exchanged]
    rw [houtcome, houtcome']
    rfl
  · obtain ⟨houtcome, harrived⟩ := run_of_not_canShow hc.fits (Source.delivers_ofBytes left)
      (Source.delivers_ofBytes right) hshow view hopen
    obtain ⟨houtcome', harrived'⟩ := run_of_not_canShow hd.fits (Source.delivers_ofBytes right)
      (Source.delivers_ofBytes left) (mt (Or.imp_right Eq.symm) hshow) view hopen'
    refine ⟨[], ?_, harrived.trans (List.append_nil _).symm,
      harrived'.trans (List.append_nil _).symm, fun hwidth => absurd (Or.inl hwidth) hshow⟩
    simp only [straight, exchanged]
    rw [houtcome, houtcome']
    rfl

/-- Six bytes and four others in either order, by one comparer: what the second content lacks is
marked in the lower lines first, and then in the upper ones. -/
theorem run_of_exchanged_shorter :
    ∃ c stats, ofStyle? ⟨4, 4, {}⟩ ⟨4, 4, []⟩ = .ok c ∧
      let straight := c.run (.ofBytes [65, 66, 67, 68, 69, 70]) (.ofBytes [65, 66, 88, 68]) ""
      let exchanged :=
        straight.next.run (.ofBytes [65, 66, 88, 68]) (.ofBytes [65, 66, 67, 68, 69, 70]) ""
      straight.outcome = .ok stats ∧ exchanged.outcome = .ok stats.swap ∧
        utf8 straight.output.toList =
          utf8 ("\n0000:   41 42(43)44 \n0000:   41 42(58)44 \n" ++
            "....\n0004:  (45 46)-- -- \n0004:  (-- --)-- -- \n").toList ∧
        utf8 exchanged.output.toList =
          utf8 ("\n0000:   41 42(58)44 \n0000:   41 42(43)44 \n" ++
            "....\n0004:  (-- --)-- -- \n0004:  (45 46)-- -- \n").toList := by
  have hbuilt : ∃ c, ofStyle? ⟨4, 4, {}⟩ ⟨4, 4, []⟩ = .ok c := exists_ofStyle?_iff.mpr (by decide)
  obtain ⟨c, hc⟩ := hbuilt
  obtain ⟨blocks, houtcome', harrived, harrived', hwidth⟩ :=
    run_of_exchanged (.built hc)
      (.ran (.built hc) (.ofBytes [65, 66, 67, 68, 69, 70]) (.ofBytes [65, 66, 88, 68]) "")
      [65, 66, 67, 68, 69, 70] [65, 66, 88, 68] Outlet.losslessText
      (trivial : Outlet.losslessText.Open "") (trivial : Outlet.losslessText.Open "")
  obtain ⟨⟨stats, houtcome⟩, rfl⟩ := hwidth (by decide)
  rw [houtcome] at houtcome'
  simp only [← utf8_toList, String.toList_ofList] at harrived harrived'
  refine ⟨c, stats, hc, houtcome, houtcome', harrived.trans ?_, harrived'.trans ?_⟩
  · decide +kernel
  · decide +kernel

end Comparer
end HexDiff
