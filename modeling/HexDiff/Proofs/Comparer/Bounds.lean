import HexDiff.Proofs.Comparer.Shown
import HexDiff.Proofs.Dump.Bounds

/-!
# Comparisons within words

A run adds each block to its counters, and the line length to the offset of the next block, once more
behind the last one.  `Comparer.runChecked` is a run with all of these sums kept to words of sixty-four
bits.  If the progress after each number of blocks is made of words (`Progress.IsWords`), then the
checks change nothing (`Course.replayChecked_eq`).

On two contents the progress is known in closed form (`Progress.after`), and it is made of words if
neither a content nor a line has more than `2 ^ 63 - 1` bytes (`Progress.isWords_after`).  Together with
the dumps, this is `words_suffice`.
-/

namespace HexDiff

/-! ### Progress in words -/

/-- The counters with one block more, each of them kept to a word. -/
def Stats.addChecked (stats : Stats) (block : Block) : Except Breach Stats := do
  let blocks ← Checked.add stats.blocks 1
  let leftLength ← Checked.add stats.leftLength block.left.length
  let rightLength ← Checked.add stats.rightLength block.right.length
  let differingBlocks ← Checked.add stats.differingBlocks block.mask.differs.toNat
  let differingBytes ← Checked.add stats.differingBytes block.mask.count
  return { blocks, differingBlocks, differingBytes, leftLength, rightLength }

/-- All counters and the offset of the next block are words of sixty-four bits. -/
structure Progress.IsWords (p : Progress) : Prop where
  blocks : p.stats.blocks < 2 ^ 64
  differingBlocks : p.stats.differingBlocks < 2 ^ 64
  differingBytes : p.stats.differingBytes < 2 ^ 64
  leftLength : p.stats.leftLength < 2 ^ 64
  rightLength : p.stats.rightLength < 2 ^ 64
  offset : p.offset < 2 ^ 64

/-- A block can be added if the progress after it is made of words. -/
theorem Progress.addChecked_eq {p : Progress} {lineLength : Nat} {block : Block}
    (h : (p.advance lineLength block).IsWords) :
    p.stats.addChecked block = .ok (p.advance lineLength block).stats := by
  rw [Stats.addChecked, Checked.add_of_lt h.blocks, ok_bind, Checked.add_of_lt h.leftLength, ok_bind,
    Checked.add_of_lt h.rightLength, ok_bind, Checked.add_of_lt h.differingBlocks, ok_bind,
    Checked.add_of_lt h.differingBytes, ok_bind]
  rfl

/-! ### Runs with checked sums -/

namespace Course

variable {σ : Type} [Outlet σ] {c : Comparer}

/-- The rest of a run along a course, with the counters and the offset kept to words.  A block is
counted before it is written, and the offset moves on after it. -/
def replayChecked :
    Course → String → Progress → σ → Array LogEntry → Except Breach (RunResult σ)
  | finished next, line, p, output, log =>
    .ok ⟨.ok p.stats, output, log.push (.diffComplete p.stats), next.reline line⟩
  | failed fault next, line, _, output, log =>
    .ok ⟨.error (.fault fault), output, log, next.reline line⟩
  | compared block next more, line, p, output, log => do
    let stats ← p.stats.addChecked block
    match (next.reline line).settle p block output log with
    | .error result => return result
    | .ok (next', output', log') =>
      let offset ← Checked.add p.offset next.layout.lineLength
      more.replayChecked next'.line ⟨stats, offset, block.mask.differs⟩ output' log'

/-- **Checked sums.**  Along a course on which the progress is made of words, after however many of
its blocks, the checks change nothing. -/
theorem replayChecked_eq {course : Course} (h : c.KeepsShape course) {p : Progress}
    (hwords : ∀ k ≤ course.blocks.length,
      (p.advanceAll c.layout.lineLength (course.blocks.take k)).IsWords)
    (line : String) (output : σ) (log : Array LogEntry) :
    course.replayChecked line p output log = .ok (course.replay line p output log) := by
  induction course generalizing line p output log with
  | finished next => rfl
  | failed fault next => rfl
  | compared block next more ih =>
    obtain ⟨hnext, hmore⟩ := h
    have hblock : (p.advance next.layout.lineLength block).IsWords := by
      rw [hnext.layout]
      exact hwords 1 (Nat.le_add_left 1 _)
    have hmoreWords : ∀ k ≤ more.blocks.length,
        ((p.advance next.layout.lineLength block).advanceAll c.layout.lineLength
          (more.blocks.take k)).IsWords := by
      rw [hnext.layout]
      exact fun k hk => hwords (k + 1) (Nat.succ_le_succ hk)
    rw [replayChecked, replay, Progress.addChecked_eq hblock, ok_bind]
    cases (next.reline line).settle p block output log with
    | error result => rfl
    | ok settled =>
      have hoffset : Checked.add p.offset next.layout.lineLength =
          .ok (p.offset + next.layout.lineLength) := Checked.add_of_lt hblock.offset
      dsimp only
      rw [hoffset, ok_bind]
      exact ih hmore hmoreWords _ _ _

end Course

/-- A run with its counters and its offset kept to words. -/
def Comparer.runChecked {σ : Type} [Outlet σ] (c : Comparer) (left right : Source) (output : σ) :
    Except Breach (RunResult σ) :=
  (c.course left right).replayChecked c.line {} output #[]

/-! ### Two contents -/

variable {layout : Layout} {style : LineStyle} {c : Comparer} {left right : List UInt8}

/-- The blocks of two contents are not longer than the longer content and one line less a byte. -/
theorem blockCount_mul_le (lineLength : Nat) (left right : List UInt8) :
    blockCount lineLength left right * lineLength ≤
      max left.length right.length + lineLength - 1 :=
  Nat.div_mul_le_self _ _

/-- The progress on two contents is made of words, up to behind the last block. -/
theorem Progress.isWords_after {lineLength : Nat} (hpos : 1 ≤ lineLength)
    (hline : lineLength < 2 ^ 63) (hleft : left.length < 2 ^ 63) (hright : right.length < 2 ^ 63)
    {k : Nat} (hk : k ≤ blockCount lineLength left right) :
    (Progress.after lineLength left right k).IsWords := by
  have hall := blockCount_mul_le lineLength left right
  have hoffset : k * lineLength ≤ blockCount lineLength left right * lineLength :=
    Nat.mul_le_mul_right lineLength hk
  have hblocks : k ≤ k * lineLength := Nat.le_mul_of_pos_right k hpos
  have hdiffering : Nat.count (BlockDiffers lineLength left right) k ≤ k := Nat.count_le _
  have hbytes : Nat.count (DiffersAt left right) (k * lineLength) ≤ k * lineLength :=
    Nat.count_le _
  constructor <;> simp only [Progress.after] <;> omega

namespace Comparer

/-- A run on two contents needs no number that is not a word. -/
theorem runChecked_eq {σ : Type} [Outlet σ] (hc : Fits layout style c)
    (hline : layout.lineLength < 2 ^ 63) (hleft : left.length < 2 ^ 63)
    (hright : right.length < 2 ^ 63) (output : σ) :
    c.runChecked (.ofBytes left) (.ofBytes right) output =
      .ok (c.run (.ofBytes left) (.ofBytes right) output) := by
  obtain ⟨hblocks, -⟩ := blocks_course hc (Source.delivers_ofBytes left)
    (Source.delivers_ofBytes right)
  rw [runChecked, run, runFrom_eq_replay]
  refine Course.replayChecked_eq (keepsShape_course (.refl c) _ _) (fun k hk => ?_) c.line output #[]
  rw [hblocks, List.length_map, List.length_range] at hk
  rw [hblocks, ← List.map_take, List.take_range, Nat.min_eq_left hk, hc.layout_eq,
    List.range_eq_range', ← Progress.after_zero layout.lineLength left right,
    Progress.advanceAll_after, Nat.zero_add]
  exact Progress.isWords_after hc.valid.1 hline hleft hright hk

/-- The piece of the report for block `k` of two contents, with the offset at which the block
begins. -/
def reportAt (layout : Layout) (style : LineStyle) (left right : List UInt8) (k : Nat) :
    List Char :=
  (Block.ofContents layout.lineLength left right k).report style
    (connectorText layout left right k) (k * layout.lineLength)

/-- The pieces written for several blocks in a row are those for the blocks that differ. -/
theorem pieces_eq_map_reportAt (hc : Fits layout style c)
    (hwidth : style.offsetWidth ≤ Hex.maxWidth) (left right : List UInt8) (k m : Nat) :
    c.pieces (.after layout.lineLength left right k)
        ((List.range' k m).map (Block.ofContents layout.lineLength left right)) =
      ((List.range' k m).filter (BlockDiffers layout.lineLength left right ·)).map
        (reportAt layout style left right) := by
  induction m generalizing k with
  | zero => rfl
  | succ m ih =>
    rw [List.range'_succ, List.map_cons, pieces, hc.layout_eq, Progress.advance_after, ih,
      List.filter_cons, Block.differs_ofContents]
    by_cases hdiffers : BlockDiffers layout.lineLength left right k
    · rw [if_pos ⟨decide_eq_true hdiffers, hc.style_eq ▸ hwidth⟩, if_pos (decide_eq_true hdiffers),
        List.map_cons, blockReport, connector, hc.layout_eq, hc.style_eq]
      simp only [Progress.after, decide_eq_true_eq]
      rfl
    · rw [if_neg (by simp [hdiffers]), if_neg (by simpa using hdiffers)]
      rfl

/-- What a run on two contents writes: the pieces for the blocks that differ, each with the offset of
its block.  If there is no column for the offsets, it writes nothing. -/
theorem output_run_ofBytes {σ : Type} [Outlet σ] (hc : Fits layout style c)
    (left right : List UInt8) (output : σ) :
    (c.run (.ofBytes left) (.ofBytes right) output).output =
      (Outlet.writeAll output (if style.offsetWidth ≤ Hex.maxWidth then
        (differingBlocks layout.lineLength left right).map (reportAt layout style left right)
      else [])).2 := by
  obtain ⟨hblocks, -⟩ := blocks_course hc (Source.delivers_ofBytes left)
    (Source.delivers_ofBytes right)
  rw [output_run]
  split
  · next hwidth =>
    rw [hblocks, List.range_eq_range', ← Progress.after_zero layout.lineLength left right,
      pieces_eq_map_reportAt hc hwidth, differingBlocks, List.range_eq_range']
  · next hwide => rw [pieces_of_overwide (hc.style_eq ▸ Nat.not_le.mp hwide)]

end Comparer

/-- **Sixty-four bits suffice.**  Take contents of less than `2 ^ 63` bytes and a layout with lines of
less than `2 ^ 63` bytes.  A dump of any range computes nothing that is not a word, and each part and
each byte of the content that it looks up is there.  A comparison, by a comparer with any runs behind
it, adds up nothing that is not a word, the offset behind the last block included, and writes each
block that differs with the offset at which it begins, or nothing at all if its style has no column
for the offsets. -/
theorem words_suffice {layout : Layout} (hline : layout.lineLength < 2 ^ 63)
    {content left right : List UInt8} (hcontent : content.length < 2 ^ 63)
    (hleft : left.length < 2 ^ 63) (hright : right.length < 2 ^ 63) {σ : Type} [Outlet σ]
    (output : σ) :
    (∀ first last, Dump.runChecked layout content first last output =
      .ok (Dump.run layout content first last output)) ∧
    ∀ style c, Comparer.Reachable layout style c →
      c.runChecked (.ofBytes left) (.ofBytes right) output =
          .ok (c.run (.ofBytes left) (.ofBytes right) output) ∧
        blockCount layout.lineLength left right * layout.lineLength < 2 ^ 64 ∧
        (c.run (.ofBytes left) (.ofBytes right) output).output =
          (Outlet.writeAll output (if style.offsetWidth ≤ Hex.maxWidth then
            (differingBlocks layout.lineLength left right).map fun k =>
              (Block.ofContents layout.lineLength left right k).report style
                (connectorText layout left right k) (k * layout.lineLength)
          else [])).2 := by
  refine ⟨fun first last => Dump.runChecked_eq hline hcontent first last output, ?_⟩
  intro style c hc
  have hall := blockCount_mul_le layout.lineLength left right
  exact ⟨Comparer.runChecked_eq hc.fits hline hleft hright output, by omega,
    Comparer.output_run_ofBytes hc.fits left right output⟩

/-- The longest line that is allowed here, and a range that reaches far behind the content. -/
theorem words_suffice_long_line :
    let layout : Layout := ⟨9223372036854775807, 16, {}⟩
    ∃ c, Comparer.ofStyle? layout (.ofLayout layout) = .ok c ∧
      Dump.runChecked layout [1, 2, 3] 1 (some 18446744073709551615) "" =
        .ok (Dump.run layout [1, 2, 3] 1 (some 18446744073709551615) "") ∧
      c.runChecked (.ofBytes [1, 2]) (.ofBytes [1]) "" =
        .ok (c.run (.ofBytes [1, 2]) (.ofBytes [1]) "") := by
  intro layout
  have hvalid : layout.Valid := by decide
  have hbuilt : ∃ c, Comparer.ofStyle? layout (.ofLayout layout) = .ok c :=
    Comparer.exists_ofStyle?_iff.mpr ⟨hvalid, rfl⟩
  obtain ⟨c, hc⟩ := hbuilt
  have hline : layout.lineLength < 2 ^ 63 := by decide
  have hcontent : ([1, 2, 3] : List UInt8).length < 2 ^ 63 := by decide
  have hleft : ([1, 2] : List UInt8).length < 2 ^ 63 := by decide
  have hright : ([1] : List UInt8).length < 2 ^ 63 := by decide
  obtain ⟨hdump, hrun⟩ := words_suffice hline hcontent hleft hright ""
  exact ⟨c, hc, hdump 1 (some 18446744073709551615), (hrun _ c (.built hc)).1⟩

end HexDiff
