import HexDiff.Proofs.Dump.SameColumns
import HexDiff.Proofs.Places
import Mathlib.Data.List.ReduceOption

/-!
# What a dump shows of a range

A dump of the bytes from one offset to another has a line for each block that holds one of them.
The blocks lie at the multiples of the line length, so the first line and the last may be partial,
and they may be the same one.  `Dump.getElem?_rangeRows` is the row of each block, and
`Dump.length_rangeRows` is their number.

A position of a line shows the byte at its offset if this lies in the range (`Dump.shownAt`), and is
blank otherwise.  With the places of a row this is what each line is.  The other way round,
`LineStyle.shownBytes` reads a line back, and the lines of a dump read one after the other are the
bytes of the range.  All of this together is `Dump.run_shows_range`.
-/

namespace HexDiff

/-! ### Reading a line back -/

/-- The byte that two digits stand for. -/
def Hex.readByte? : List Char → Option UInt8
  | [high, low] => do
    let h ← digitValue? high
    let l ← digitValue? low
    return UInt8.ofNat (16 * h + l)
  | _ => none

/-- A byte reads back as itself. -/
theorem Hex.readByte?_ofByte (b : UInt8) : readByte? (ofByte b) = some b := by
  have hb := b.toNat_lt
  have hhigh : digitValue? (upperDigit (b.toNat / 16)) = some (b.toNat / 16) :=
    digitValue?_upperDigit (by omega)
  have hlow : digitValue? (upperDigit (b.toNat % 16)) = some (b.toNat % 16) :=
    digitValue?_upperDigit (by omega)
  have hbyte : 16 * (b.toNat / 16) + b.toNat % 16 = b.toNat := Nat.div_add_mod b.toNat 16
  simp only [readByte?, ofByte, hhigh, hlow, Option.bind_eq_bind, Option.bind_some, hbyte,
    UInt8.ofNat_toNat, Option.pure_def]

namespace LineStyle

/-- The bytes that a line of `capacity` positions shows behind the mark after its offset. -/
def shownBytes (capacity : Nat) (text : List Char) : List UInt8 :=
  let columns := (text.dropWhile fun c => (Hex.digitValue? c).isSome).tail
  (List.range capacity).filterMap fun i => Hex.readByte? ((columns.drop (cellColumn i)).take 2)

/-- Behind the digits of the offset and the mark after them, a line has its columns. -/
theorem tail_dropWhile_row (style : LineStyle) (offset : Nat) (blank : List Char)
    (cells : List (Option UInt8)) (flags : List Bool) (bytes : List UInt8) :
    ((style.row offset blank cells flags bytes).dropWhile
        fun c => (Hex.digitValue? c).isSome).tail =
      (style.row offset blank cells flags bytes).drop (style.headerWidth offset) := by
  rw [row_eq_append, ← length_header, List.drop_left, List.append_assoc,
    List.dropWhile_append_of_pos fun _ => Hex.isSome_digitValue?_of_mem_padded]
  rfl

/-- A line shows the bytes of its cells. -/
theorem shownBytes_row (style : LineStyle) (offset : Nat) {blank : List Char}
    (hblank : blank.length = 2) (hread : Hex.readByte? blank = none)
    (cells : List (Option UInt8)) {flags : List Bool} (hflags : flags.length = style.capacity)
    (bytes : List UInt8) :
    shownBytes style.capacity (style.row offset blank cells flags bytes) =
      (List.range style.capacity).filterMap fun i => cells[i]?.join := by
  have hlaid := laidOut_row style offset hblank cells hflags bytes
  unfold shownBytes
  dsimp only
  rw [tail_dropWhile_row]
  refine List.filterMap_congr fun i hi => ?_
  rw [List.drop_drop, hlaid.cells i (List.mem_range.mp hi)]
  cases cells[i]?.join with
  | none => exact hread
  | some b => exact Hex.readByte?_ofByte b

end LineStyle

/-- The things that some places hold, where places without a thing may follow. -/
theorem filterMap_getElem?_join {α : Type} {n : Nat} {cells : List (Option α)}
    (h : cells.length ≤ n) :
    ((List.range n).filterMap fun i => cells[i]?.join) = cells.reduceOption := by
  induction cells generalizing n with
  | nil =>
    rw [List.reduceOption_nil, List.filterMap_eq_nil_iff]
    intro i _
    rfl
  | cons cell cells ih =>
    cases n with
    | zero => cases h
    | succ n =>
      have hrest := ih (Nat.le_of_succ_le_succ h)
      have hshift : (List.range (n + 1)).filterMap (fun i => (cell :: cells)[i]?.join) =
          cell.toList ++ (List.range n).filterMap fun i => cells[i]?.join := by
        rw [List.range_succ_eq_map, List.filterMap_cons, List.filterMap_map]
        cases cell with
        | none => rfl
        | some x => rfl
      rw [hshift, hrest]
      cases cell with
      | none => rfl
      | some x => rfl

/-- The cells of a row that fits into a line hold the bytes of the row. -/
theorem DumpRow.filterMap_cells {row : DumpRow} {n : Nat}
    (h : row.lead + row.bytes.length ≤ n) :
    ((List.range n).filterMap fun i => row.cells[i]?.join) = row.bytes := by
  have hlength : row.cells.length ≤ n := by
    rwa [cells, List.length_append, List.length_replicate, List.length_map]
  rw [filterMap_getElem?_join hlength, cells, List.reduceOption_append,
    List.reduceOption_replicate_none, List.nil_append, List.reduceOption, List.filterMap_map]
  exact List.filterMap_some

namespace Dump

/-! ### The rows of a range -/

/-- The last offset that is shown, told for each end that may be wanted. -/
theorem elim_eq_lastOffset (content : List UInt8) (last : Option Nat) :
    last.elim (content.length - 1) (min · (content.length - 1)) = lastOffset content last := by
  cases last with
  | none => rfl
  | some last => rfl

/-- What a dump of the bytes from `first` to `final` shows at an offset. -/
def shownAt (content : List UInt8) (first final offset : Nat) : Option UInt8 :=
  if first ≤ offset ∧ offset ≤ final then content[offset]? else none

/-- The bytes from `first` to `final` in the block of `lineLength` bytes that begins at `base`. -/
def blockBytes (lineLength : Nat) (content : List UInt8) (first final base : Nat) : List UInt8 :=
  (content.take (min (final + 1) (base + lineLength))).drop (max first base)

/-- A row that holds the bytes of its block, behind what lies before the range, shows at each
position what there is to show. -/
theorem cells_block (content : List UInt8) (first final base : Nat) {lineLength i : Nat}
    (hi : i < lineLength) :
    (DumpRow.mk base (first - base)
        (blockBytes lineLength content first final base)).cells[i]?.join =
      shownAt content first final (base + i) := by
  have hcells : (DumpRow.mk base (first - base)
      (blockBytes lineLength content first final base)).cells =
        List.replicate (first - base) none ++
          (blockBytes lineLength content first final base).map some := rfl
  rw [hcells, shownAt]
  rcases Nat.lt_or_ge i (first - base) with hlt | hge
  · have hout : ¬(first ≤ base + i ∧ base + i ≤ final) := by omega
    rw [List.getElem?_append_left (by rwa [List.length_replicate]),
      List.getElem?_replicate_of_lt hlt, if_neg hout]
    rfl
  · have hoffset : max first base + (i - (first - base)) = base + i := by omega
    rw [List.getElem?_append_right (by rwa [List.length_replicate]), List.length_replicate,
      LineStyle.join_getElem?_map_some, blockBytes, List.getElem?_drop, hoffset, List.getElem?_take]
    by_cases hlast : base + i ≤ final
    · have hwithin : base + i < min (final + 1) (base + lineLength) := by omega
      have hin : first ≤ base + i ∧ base + i ≤ final := by omega
      rw [if_pos hwithin, if_pos hin]
    · have hout : ¬base + i < min (final + 1) (base + lineLength) := by omega
      have hnot : ¬(first ≤ base + i ∧ base + i ≤ final) := fun h => hlast h.2
      rw [if_neg hout, if_neg hnot]

/-- The bytes from `first` to the last offset that is shown. -/
def range (content : List UInt8) (first : Nat) (last : Option Nat) : List UInt8 :=
  (content.drop first).take (lastOffset content last + 1 - first)

/-- The rows of a range are those of its bytes, also if it has none. -/
theorem rangeRows_eq_rows (lineLength : Nat) (content : List UInt8) (first : Nat)
    (last : Option Nat) :
    rangeRows lineLength content first last =
      rows lineLength (first - first % lineLength) (first % lineLength)
        (range content first last) := by
  by_cases hempty : content = [] ∨ lastOffset content last < first
  · have hnone : range content first last = [] := by
      unfold range
      rcases hempty with rfl | hlt
      · rw [List.drop_nil, List.take_nil]
      · have hzero : lastOffset content last + 1 - first = 0 := by omega
        rw [hzero, List.take_zero]
    rw [hnone, rows_nil]
    exact if_pos hempty
  · exact if_neg hempty

section Range

variable {lineLength first : Nat} {content : List UInt8} {last : Option Nat}
  (hpos : 1 ≤ lineLength) (h : ¬(content = [] ∨ lastOffset content last < first))
include h

/-- A range that is not empty ends within the content. -/
theorem lastOffset_lt : lastOffset content last < content.length := by
  have hlength : 0 < content.length := List.length_pos_iff.mpr fun hnil => h (Or.inl hnil)
  unfold lastOffset
  cases last with
  | none => exact Nat.sub_one_lt_of_lt hlength
  | some last => exact Nat.lt_of_le_of_lt (Nat.min_le_right _ _) (Nat.sub_one_lt_of_lt hlength)

/-- The number of bytes of a range. -/
theorem length_range : (range content first last).length = lastOffset content last + 1 - first := by
  have hlast := lastOffset_lt h
  rw [range, List.length_take, List.length_drop]
  omega

/-- A range that is not empty has a byte. -/
theorem range_ne_nil : range content first last ≠ [] := by
  have hle : first ≤ lastOffset content last := Nat.le_of_not_lt fun hlt => h (Or.inr hlt)
  rw [← List.length_pos_iff, length_range h]
  omega

include hpos

/-- There is a row for each block from that of the first byte to that of the last. -/
theorem length_rangeRows :
    (rangeRows lineLength content first last).length =
      lastOffset content last / lineLength - first / lineLength + 1 := by
  have hlength := length_range h
  have hle : first ≤ lastOffset content last := Nat.le_of_not_lt fun hlt => h (Or.inr hlt)
  have hmod : first % lineLength < lineLength := Nat.mod_lt first hpos
  have hfirst := Nat.div_add_mod first lineLength
  -- the first row begins at the beginning of its block
  have hspan : first % lineLength + (lastOffset content last + 1 - first) - 1 =
      lastOffset content last - lineLength * (first / lineLength) := by omega
  rw [rangeRows_eq_rows, length_rows hmod (range_ne_nil h), hlength, hspan, Nat.sub_mul_div]

/-- The row of each block of a range. -/
theorem getElem?_rangeRows {j : Nat}
    (hj : j < lastOffset content last / lineLength - first / lineLength + 1) :
    (rangeRows lineLength content first last)[j]? =
      some ⟨(first / lineLength + j) * lineLength,
        first - (first / lineLength + j) * lineLength,
        blockBytes lineLength content first (lastOffset content last)
          ((first / lineLength + j) * lineLength)⟩ := by
  have hlength := length_range h
  have hle : first ≤ lastOffset content last := Nat.le_of_not_lt fun hlt => h (Or.inr hlt)
  have hmod : first % lineLength < lineLength := Nat.mod_lt first hpos
  have hfirst := Nat.div_add_mod' first lineLength
  have hbegins : (first / lineLength + j) * lineLength ≤ lastOffset content last := by
    have hblocks : first / lineLength ≤ lastOffset content last / lineLength :=
      Nat.div_le_div_right hle
    exact (Nat.le_div_iff_mul_le hpos).mp (by omega)
  rw [Nat.add_mul] at hbegins ⊢
  rw [rangeRows_eq_rows, getElem?_rows hmod (range_ne_nil h) _ (by omega)]
  have hbase : first - first % lineLength + j * lineLength =
      first / lineLength * lineLength + j * lineLength := by omega
  have hlead : first % lineLength - j * lineLength =
      first - (first / lineLength * lineLength + j * lineLength) := by omega
  have hskip : first + (j * lineLength - first % lineLength) =
      max first (first / lineLength * lineLength + j * lineLength) := by omega
  have htake : min (lineLength - (first - (first / lineLength * lineLength + j * lineLength)))
      (lastOffset content last + 1 - first - (j * lineLength - first % lineLength)) =
        min (lastOffset content last + 1)
            (first / lineLength * lineLength + j * lineLength + lineLength) -
          max first (first / lineLength * lineLength + j * lineLength) := by omega
  rw [hbase, hlead, blockBytes, range, List.drop_take, List.drop_drop, hskip, List.take_take, htake,
    List.drop_take]

end Range

/-! ### The lines of a range -/

/-- The line of a row shows the bytes of the row. -/
theorem shownBytes_line {layout : Layout} {content : List UInt8} {first : Nat} {last : Option Nat}
    {row : DumpRow} (hrow : row ∈ rangeRows layout.lineLength content first last) :
    LineStyle.shownBytes layout.lineLength
        (row.line (.ofLayout layout) (List.replicate layout.lineLength false)) = row.bytes := by
  rw [rangeRows_eq_rows] at hrow
  exact (LineStyle.shownBytes_row (.ofLayout layout) row.base rfl rfl row.cells
    List.length_replicate row.bytes).trans (DumpRow.filterMap_cells (lead_add_length_le hrow))

/-- The lines of a range show its bytes, one after the other. -/
theorem flatMap_shownBytes_lines {layout : Layout} (hvalid : layout.Valid) (content : List UInt8)
    (first : Nat) (last : Option Nat) :
    (lines layout content first last).flatMap (LineStyle.shownBytes layout.lineLength) =
      range content first last := by
  have hmod : first % layout.lineLength < layout.lineLength := Nat.mod_lt first hvalid.1
  rw [lines, List.flatMap_map, List.flatMap_congr fun _ => shownBytes_line, rangeRows_eq_rows,
    flatMap_bytes_rows hmod]

/-- Everything stands in its place in the line of a block. -/
theorem laidOut_line_block (layout : Layout) (content : List UInt8) (first final base : Nat) :
    (LineStyle.ofLayout layout).LaidOut base DumpRow.blankByte
      (fun i => shownAt content first final (base + i)) (fun _ => False) (fun _ => False)
      (blockBytes layout.lineLength content first final base)
      ((DumpRow.mk base (first - base)
        (blockBytes layout.lineLength content first final base)).line (.ofLayout layout)
          (List.replicate layout.lineLength false)) := by
  have hflags : (List.replicate layout.lineLength false).length =
      (LineStyle.ofLayout layout).capacity := List.length_replicate
  have hunset : ∀ i, Mask.get ⟨List.replicate layout.lineLength false⟩ i ≠ true := by
    intro i hget
    rw [Mask.get, List.getD_eq_getElem?_getD, List.getElem?_replicate] at hget
    split at hget
    · cases hget
    · cases hget
  have hblank : DumpRow.blankByte.length = 2 := rfl
  have hrow := LineStyle.laidOut_row (.ofLayout layout) base hblank
    (DumpRow.mk base (first - base)
      (blockBytes layout.lineLength content first final base)).cells hflags
    (blockBytes layout.lineLength content first final base)
  refine hrow.congr (fun i hi => ?_) (fun i _ => ?_) (fun i _ => ?_)
  · exact cells_block content first final base hi
  · exact iff_of_false (fun h => hunset i h.1) not_false
  · exact iff_of_false (fun h => hunset i h.1) not_false

/-- **What a dump shows.**  With a valid layout, a dump without bytes writes nothing.  Any other one
has a line for each block from that of the first byte of the range to that of the last, and says how
many these are.  Line `j` has the offset of its block; it shows the bytes of the block that lie in
the range, each at its position, with spaces at the other positions and without brackets; and its
overlays are those of these bytes.  The bytes that the lines show are those of the range, each of
them once and in their order. -/
theorem run_shows_range {layout : Layout} (hvalid : layout.Valid) (content : List UInt8)
    (first : Nat) (last : Option Nat) :
    let lineLength := layout.lineLength
    let final := last.elim (content.length - 1) (min · (content.length - 1))
    let result := run layout content first last ""
    (content = [] ∨ final < first → result.outcome = .ok 0 ∧ result.output = "") ∧
    (¬(content = [] ∨ final < first) →
      ∃ lines : List (List Char),
        result.outcome = .ok lines.length ∧
        lines.length = final / lineLength - first / lineLength + 1 ∧
        result.output = String.ofList (unlines lines) ∧
        (∀ line ∈ lines, '\n' ∉ line) ∧
        (∀ j line, lines[j]? = some line →
          (LineStyle.ofLayout layout).LaidOut ((first / lineLength + j) * lineLength)
            DumpRow.blankByte
            (fun i => shownAt content first final ((first / lineLength + j) * lineLength + i))
            (fun _ => False) (fun _ => False)
            (blockBytes lineLength content first final ((first / lineLength + j) * lineLength))
            line) ∧
        lines.flatMap (LineStyle.shownBytes lineLength) =
          (content.drop first).take (final + 1 - first)) := by
  intro lineLength final result
  have hfinal : final = lastOffset content last := elim_eq_lastOffset content last
  obtain ⟨houtcome, houtput⟩ := run_text hvalid content first last
  rw [hfinal]
  constructor
  · intro hempty
    have hlines : lines layout content first last = [] := by
      rw [lines, rangeRows, if_pos hempty]
      rfl
    rw [hlines] at houtcome houtput
    exact ⟨houtcome, houtput⟩
  · intro hrange
    have hlength : (lines layout content first last).length =
        lastOffset content last / lineLength - first / lineLength + 1 := by
      rw [lines, List.length_map, length_rangeRows hvalid.1 hrange]
    refine ⟨lines layout content first last, houtcome, hlength, houtput, ?_, ?_,
      flatMap_shownBytes_lines hvalid content first last⟩
    · exact fun line hline => (allPrintable_of_mem_lines hline).newline_notMem
    · intro j line hline
      have hj := (List.getElem?_eq_some_iff.mp hline).1
      rw [hlength] at hj
      rw [lines, List.getElem?_map, getElem?_rangeRows hvalid.1 hrange hj, Option.map_some,
        Option.some.injEq] at hline
      rw [← hline]
      exact laidOut_line_block layout content first _ _

/-- The fourth to the ninth of ten bytes, in lines of four: the first line is blank before them, and
the last shows one byte. -/
theorem run_shows_range_partial :
    (⟨4, 4, { ascii := true }⟩ : Layout).Valid ∧
      ¬(([65, 66, 67, 68, 69, 70, 71, 72, 73, 74] : List UInt8) = [] ∨ 8 < 3) ∧
      (run ⟨4, 4, { ascii := true }⟩ [65, 66, 67, 68, 69, 70, 71, 72, 73, 74] 3 (some 8) "").output =
        "0000:            44   D\n0004:   45 46 47 48   EFGH\n0008:   49            I\n" ∧
      ∃ lines : List (List Char),
        (run ⟨4, 4, { ascii := true }⟩ [65, 66, 67, 68, 69, 70, 71, 72, 73, 74] 3 (some 8)
          "").outcome = .ok lines.length ∧ lines.length = 3 ∧
        lines.flatMap (LineStyle.shownBytes 4) = [68, 69, 70, 71, 72, 73] := by
  have hvalid : (⟨4, 4, { ascii := true }⟩ : Layout).Valid := by decide
  have hrange : ¬(([65, 66, 67, 68, 69, 70, 71, 72, 73, 74] : List UInt8) = [] ∨ 8 < 3) := by decide
  obtain ⟨lines, houtcome, hlength, -, -, -, hshown⟩ :=
    (run_shows_range hvalid [65, 66, 67, 68, 69, 70, 71, 72, 73, 74] 3 (some 8)).2 hrange
  exact ⟨hvalid, hrange, by decide +kernel, lines, houtcome, hlength, hshown⟩

end Dump
end HexDiff
