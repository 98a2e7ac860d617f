import HexDiff.Proofs.Printable

/-!
# A dump shows the columns of a report

A dump has the columns of a report without what tells the differences: spaces stand in it for the
brackets and for the marks of the bytes that one side does not have.  `LineStyle.plain` takes these
away from a piece of text.  A bracket takes the place of one space whatever the groups of eight and
sixteen are, so that the columns of a window under any flags become the columns of a dump
(`LineStyle.plain_columns`).

The rows of a dump of a whole content are its windows, one after the other
(`Dump.getElem?_rows_zero`).  So what a report shows of a content in a block that differs is, before
the overlays, the line of this block in the dump of the content (`dump_shows_same_columns`).
-/

namespace HexDiff

/-! ### Plain columns -/

namespace LineStyle

/-- A space in the place of a bracket. -/
def plainChar (c : Char) : Char :=
  if c = '(' ∨ c = ')' then ' ' else c

/-- A text with a space in the place of each bracket, and two in the place of each mark of a missing
byte. -/
def plain : List Char → List Char
  | '-' :: '-' :: rest => ' ' :: ' ' :: plain rest
  | c :: rest => plainChar c :: plain rest
  | [] => []

/-- Two spaces in the place of a mark. -/
theorem plain_missingByte_append (rest : List Char) :
    plain (missingByte ++ rest) = DumpRow.blankByte ++ plain rest := rfl

/-- A text without a hyphen holds no mark, and none begins in it. -/
theorem plain_append {text : List Char} (h : '-' ∉ text) (rest : List Char) :
    plain (text ++ rest) = text.map plainChar ++ plain rest := by
  induction text with
  | nil => rfl
  | cons c text ih =>
    have hc : c ≠ '-' := fun heq => h (heq ▸ List.mem_cons_self)
    have htext : '-' ∉ text := fun hmem => h (List.mem_cons_of_mem c hmem)
    rw [List.cons_append, List.map_cons, List.cons_append, plain, ih htext]
    intro _ heq
    exact absurd heq hc

/-- A digit is no hyphen and no bracket. -/
theorem plain_digits_append {digits : List Char}
    (h : ∀ c ∈ digits, (Hex.digitValue? c).isSome) (rest : List Char) :
    plain (digits ++ rest) = digits ++ plain rest := by
  have hmem : ∀ c, Hex.digitValue? c = none → c ∉ digits := by
    intro c hnone hc
    have hsome := h c hc
    rw [hnone] at hsome
    cases hsome
  have hsame : digits.map plainChar = digits.map id := by
    refine List.map_congr_left fun c hc => if_neg ?_
    rintro (rfl | rfl)
    · exact hmem '(' rfl hc
    · exact hmem ')' rfl hc
  rw [plain_append (hmem '-' rfl), hsame, List.map_id]

/-- What stands before the digits of a position is spaces and brackets. -/
theorem hyphen_notMem_gap (i : Nat) (before here : Bool) : '-' ∉ gap i before here := by
  unfold gap
  grind

/-- It becomes what stands there if nothing differs. -/
theorem map_plainChar_gap (i : Nat) (before here : Bool) :
    (gap i before here).map plainChar = gap i false false := by
  -- brackets stand on either side of the spaces of a group, and all of them look alike without them
  by_cases heighth : i % 8 = 0 <;> by_cases hsixteenth : i % 16 = 0 <;> cases before <;>
    cases here <;> simp [gap, plainChar, heighth, hsixteenth]

/-- The columns of some cells under any flags become the columns of these cells under no flags, with
spaces for the missing bytes. -/
theorem plain_columns (i : Nat) (before : Bool) (flags : List Bool)
    (cells : List (Option UInt8)) :
    plain (columns missingByte i before flags cells) =
      columns DumpRow.blankByte i false (List.replicate flags.length false) cells := by
  induction flags generalizing i before cells with
  | nil => cases before <;> rfl
  | cons here flags ih =>
    have hcell : ∀ (cell : Option UInt8) (rest : List Char),
        plain (cellText missingByte cell ++ rest) =
          cellText DumpRow.blankByte cell ++ plain rest := by
      intro cell rest
      cases cell with
      | none => exact plain_missingByte_append rest
      | some b =>
        exact plain_digits_append (fun _ => Hex.isSome_digitValue?_of_mem_ofByte) rest
    rw [columns, List.append_assoc, plain_append (hyphen_notMem_gap i before here),
      map_plainChar_gap, hcell, ih, List.length_cons, List.replicate_succ, columns,
      List.append_assoc]

/-- What a line has before its overlays: the offset and the columns. -/
def front (style : LineStyle) (offset : Nat) (blank : List Char) (cells : List (Option UInt8))
    (flags : List Bool) : List Char :=
  Hex.padded style.offsetWidth offset ++ ':' :: columns blank 0 false flags cells

/-- A line is its front and its overlays. -/
theorem row_eq (style : LineStyle) (offset : Nat) (blank : List Char)
    (cells : List (Option UInt8)) (flags : List Bool) (bytes : List UInt8) :
    style.row offset blank cells flags bytes =
      style.front offset blank cells flags ++ style.overlayText bytes := rfl

/-- The front of a line under any flags becomes that of a line under no flags. -/
theorem plain_front (style : LineStyle) (offset : Nat) (cells : List (Option UInt8))
    {flags : List Bool} {n : Nat} (h : flags.length = n) :
    plain (style.front offset missingByte cells flags) =
      style.front offset DumpRow.blankByte cells (List.replicate n false) := by
  rw [front, plain_digits_append fun _ => Hex.isSome_digitValue?_of_mem_padded, ← h]
  exact congrArg (_ ++ ':' :: ·) (plain_columns 0 false flags cells)

end LineStyle

/-! ### The dump of a whole content -/

namespace Dump

/-- The rows of some bytes from the beginning of a line on are their windows. -/
theorem getElem?_rows_zero {lineLength : Nat} (hpos : 1 ≤ lineLength) {bytes : List UInt8} {k : Nat}
    (h : window lineLength bytes k ≠ []) (base : Nat) :
    (rows lineLength base 0 bytes)[k]? =
      some ⟨base + k * lineLength, 0, window lineLength bytes k⟩ := by
  have hlt : k * lineLength < 0 + bytes.length := by
    by_contra hge
    have hnil : bytes.drop (k * lineLength) = [] := List.drop_eq_nil_iff.mpr (by omega)
    rw [window, hnil, List.take_nil] at h
    exact h rfl
  have hbytes : bytes ≠ [] := by
    rintro rfl
    exact h (window_nil lineLength k)
  rw [getElem?_rows hpos hbytes base hlt, Nat.zero_sub, Nat.sub_zero, Nat.sub_zero]
  rfl

/-- A dump without bounds shows the whole content. -/
theorem rangeRows_zero_none (lineLength : Nat) (content : List UInt8) :
    rangeRows lineLength content 0 none = rows lineLength 0 0 content := by
  by_cases hempty : content = []
  · have hrows : rows lineLength 0 0 content = [] := by rw [hempty, rows_nil]
    rw [hrows]
    exact if_pos (Or.inl hempty)
  · have hlength : 0 < content.length := List.length_pos_iff.mpr hempty
    simp only [rangeRows, lastOffset, Option.map_none, Option.getD_none, hempty, Nat.not_lt_zero,
      or_self, if_false, Nat.zero_mod, Nat.sub_zero, List.drop_zero, Nat.sub_add_cancel hlength,
      List.take_length]

/-- Line `k` of the dump of a whole content shows the window of block `k`. -/
theorem getElem?_lines {layout : Layout} (hvalid : layout.Valid) {content : List UInt8} {k : Nat}
    (h : window layout.lineLength content k ≠ []) :
    (lines layout content 0 none)[k]? =
      some ((LineStyle.ofLayout layout).front (k * layout.lineLength) DumpRow.blankByte
          ((window layout.lineLength content k).map some)
          (List.replicate layout.lineLength false) ++
        (LineStyle.ofLayout layout).overlayText (window layout.lineLength content k)) := by
  rw [lines, rangeRows_zero_none, List.getElem?_map, getElem?_rows_zero hvalid.1 h, Nat.zero_add,
    Option.map_some, DumpRow.line, LineStyle.row_eq]
  rfl

end Dump

/-! ### Reports and dumps -/

/-- The lines of a report as a text. -/
theorem exists_splitOn_diffText {layout : Layout} (hvalid : layout.Valid)
    (left right : List UInt8) :
    ∃ text, diffText layout left right = .ok text ∧
      text.toList.splitOn '\n' = reportLines layout (.ofLayout layout) left right ++ [[]] := by
  have hlines : ∀ line ∈ reportLines layout (.ofLayout layout) left right, '\n' ∉ line :=
    fun _ hline => (allPrintable_of_mem_reportLines
      (fun _ => OverlaySet.printableSymbols_of_mem) hline).newline_notMem
  refine ⟨_, diffText_of_valid hvalid left right, ?_⟩
  rw [String.toList_ofList, reportText_eq_unlines, splitOn_unlines hlines]

/-- Behind the separator of a block come the line of its left window and that of its right one, both
under the same flags. -/
theorem exists_line_shownBlock {layout : Layout} (style : LineStyle)
    {left right content : List UInt8} {place : Nat} (k : Nat)
    (h : (content, place) ∈ [(left, 1), (right, 2)]) :
    place < 3 ∧ ∃ flags : List Bool, flags.length = layout.lineLength ∧
      (shownBlock layout style left right k).lines[place]? =
        some (style.line (k * layout.lineLength) (window layout.lineLength content k) flags) := by
  have hflags := Mask.length_flagsOf layout.lineLength (window layout.lineLength left k)
    (window layout.lineLength right k)
  simp only [List.mem_cons, Prod.mk.injEq, List.not_mem_nil, or_false] at h
  rcases h with ⟨rfl, rfl⟩ | ⟨rfl, rfl⟩
  · exact ⟨by omega, _, hflags, rfl⟩
  · exact ⟨by omega, _, hflags, rfl⟩

/-- The lines of a dump as a text. -/
theorem Dump.splitOn_run {layout : Layout} (hvalid : layout.Valid) (content : List UInt8)
    (first : Nat) (last : Option Nat) :
    (run layout content first last "").output.toList.splitOn '\n' =
      lines layout content first last ++ [[]] := by
  have hlines : ∀ line ∈ lines layout content first last, '\n' ∉ line :=
    fun line hline => (allPrintable_of_mem_lines hline).newline_notMem
  rw [(run_text hvalid content first last).2, String.toList_ofList, splitOn_unlines hlines]

/-- **A dump shows the columns of a report.**  With a valid layout, the report on two contents has
three lines for each block that differs, in the order of the blocks: the second of them is on the
left content, and the third on the right one.  Let `k` be such a block, and let one of the contents
have something there.  Its line in the report is some columns followed by the overlays of its
window.  With the differences taken out of the columns, this is line `k` of the dump of the whole
content. -/
theorem dump_shows_same_columns {layout : Layout} (hvalid : layout.Valid)
    (left right : List UInt8) :
    (∀ k, k ∈ differingBlocks layout.lineLength left right ↔
      window layout.lineLength left k ≠ window layout.lineLength right k) ∧
    ∃ text, diffText layout left right = .ok text ∧
      (text.toList.splitOn '\n').length =
        3 * (differingBlocks layout.lineLength left right).length + 1 ∧
      ∀ j k : Nat, (differingBlocks layout.lineLength left right)[j]? = some k →
        ∀ content place, (content, place) ∈ [(left, 1), (right, 2)] →
          window layout.lineLength content k ≠ [] →
            ∃ columns, (text.toList.splitOn '\n')[3 * j + place]? =
                some (columns ++ (LineStyle.ofLayout layout).overlayText
                  (window layout.lineLength content k)) ∧
              ∃ lines, (Dump.run layout content 0 none "").outcome = .ok lines ∧ k < lines ∧
                ((Dump.run layout content 0 none "").output.toList.splitOn '\n')[k]? =
                  some (LineStyle.plain columns ++ (LineStyle.ofLayout layout).overlayText
                    (window layout.lineLength content k)) := by
  obtain ⟨text, htext, hsplit⟩ := exists_splitOn_diffText hvalid left right
  refine ⟨fun _ => mem_differingBlocks hvalid.1, text, htext, ?_,
    fun j k hjk content place hside hwindow => ?_⟩
  · rw [hsplit, List.length_append, length_reportLines, List.length_singleton]
  · obtain ⟨hplace, flags, hflags, hline⟩ := exists_line_shownBlock (.ofLayout layout) k hside
    have hreport := (getElem?_reportLines hjk hplace).trans hline
    have hdump := Dump.getElem?_lines hvalid hwindow
    rw [← LineStyle.plain_front _ _ _ hflags] at hdump
    obtain ⟨hwithin, -⟩ := List.getElem?_eq_some_iff.mp hreport
    obtain ⟨hwithin', -⟩ := List.getElem?_eq_some_iff.mp hdump
    refine ⟨(LineStyle.ofLayout layout).front (k * layout.lineLength) LineStyle.missingByte
      ((window layout.lineLength content k).map some) flags, ?_,
      _, (Dump.run_text hvalid content 0 none).1, hwithin', ?_⟩
    · rw [hsplit, List.getElem?_append_left hwithin, hreport, LineStyle.line, LineStyle.row_eq]
    · rw [Dump.splitOn_run hvalid, List.getElem?_append_left hwithin', hdump]

/-- Six bytes against four others.  Of its second block the report shows two bytes in brackets, with
marks behind them, on the left, and the dump shows them without. -/
theorem dump_shows_same_columns_short :
    (⟨4, 4, { ascii := true }⟩ : Layout).Valid ∧
      diffText ⟨4, 4, { ascii := true }⟩ [65, 66, 67, 68, 69, 70] [65, 66, 88, 68] =
        .ok ("\n0000:   41 42(43)44   ABCD\n0000:   41 42(58)44   ABXD\n" ++
          "....\n0004:  (45 46)-- --   EF\n0004:  (-- --)-- --   \n") ∧
      ((Dump.run ⟨4, 4, { ascii := true }⟩ [65, 66, 67, 68, 69, 70] 0 none
          "").output.toList.splitOn '\n')[1]? = some "0004:   45 46         EF".toList := by
  have hvalid : (⟨4, 4, { ascii := true }⟩ : Layout).Valid := by decide
  have hdiff : diffText ⟨4, 4, { ascii := true }⟩ [65, 66, 67, 68, 69, 70] [65, 66, 88, 68] =
      .ok ("\n0000:   41 42(43)44   ABCD\n0000:   41 42(58)44   ABXD\n" ++
        "....\n0004:  (45 46)-- --   EF\n0004:  (-- --)-- --   \n") := by decide +kernel
  refine ⟨hvalid, hdiff, ?_⟩
  obtain ⟨-, text, htext, -, hall⟩ :=
    dump_shows_same_columns hvalid [65, 66, 67, 68, 69, 70] [65, 66, 88, 68]
  obtain ⟨columns, hreport, lines, -, -, hdump⟩ := hall 1 1 (by decide +kernel)
    [65, 66, 67, 68, 69, 70] 1 (by simp) (by decide)
  have hoverlays : (LineStyle.ofLayout ⟨4, 4, { ascii := true }⟩).overlayText
      (window 4 [65, 66, 67, 68, 69, 70] 1) = "  EF".toList := by decide +kernel
  obtain rfl := Except.ok.inj (hdiff.symm.trans htext)
  have hline : (("\n0000:   41 42(43)44   ABCD\n0000:   41 42(58)44   ABXD\n" ++
      "....\n0004:  (45 46)-- --   EF\n0004:  (-- --)-- --   \n").toList.splitOn '\n')[3 * 1 + 1]? =
        some ("0004:  (45 46)-- -- ".toList ++ "  EF".toList) := by decide +kernel
  rw [hline, hoverlays] at hreport
  obtain rfl := List.append_cancel_right (Option.some.inj hreport)
  rw [hdump, hoverlays]
  decide +kernel

end HexDiff
