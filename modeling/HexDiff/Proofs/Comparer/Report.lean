import HexDiff.Proofs.Comparer.Progress

/-!
# The report on two contents

`reportText` is the report on two contents told without streams, windows that are filled again, or
progress: one block after the other, and for each block that differs a separator and the lines of
its two windows, under flags that say where they differ.

A comparer writes this report and nothing else to an output that refuses nothing, whatever it has
been used for before (`Comparer.run_of_lossless`).  It has to have lines to write: a style whose
offsets have no column comes to no report, unless the contents are equal (`LineStyle.CanShow`).

The report on contents in memory is collected as bytes and read back as a text.  As these are the
bytes of a text, reading them never fails.  So `diffText` fails for one reason only, a layout that is
not valid.
-/

namespace HexDiff

/-! ### The reference -/

/-- The text for block `k` of two contents.  There is none if the windows are the same.  Otherwise
the separator is a row of dots if there is a block before it that differs too. -/
def blockText (layout : Layout) (style : LineStyle) (left right : List UInt8) (k : Nat) :
    List Char :=
  let n := layout.lineLength
  let lft := window n left k
  let rgt := window n right k
  let flags := (List.range n).map fun i => decide (lft[i]? ≠ rgt[i]?)
  if lft = rgt then []
  else
    (if 0 < k ∧ window n left (k - 1) ≠ window n right (k - 1) then
        List.replicate layout.offsetWidth '.'
      else []) ++
      '\n' :: style.line (k * n) lft flags ++ '\n' :: style.line (k * n) rgt flags ++ ['\n']

/-- The report on two contents. -/
def reportText (layout : Layout) (style : LineStyle) (left right : List UInt8) : List Char :=
  (List.range (blockCount layout.lineLength left right)).flatMap
    (blockText layout style left right)

/-- There is no text for a block exactly if its windows are the same. -/
theorem blockText_eq_nil_iff {layout : Layout} {style : LineStyle} {left right : List UInt8}
    {k : Nat} : blockText layout style left right k = [] ↔
      ¬BlockDiffers layout.lineLength left right k := by
  rw [BlockDiffers, not_not, blockText]
  constructor
  · intro hnil
    by_contra hne
    rw [if_neg hne] at hnil
    simp at hnil
  · intro hsame
    rw [if_pos hsame]

/-- A style can show how two contents differ, if they do: there is a column for its offsets. -/
def LineStyle.CanShow (style : LineStyle) (left right : List UInt8) : Prop :=
  style.offsetWidth ≤ Hex.maxWidth ∨ left = right

instance (style : LineStyle) (left right : List UInt8) : Decidable (style.CanShow left right) :=
  inferInstanceAs (Decidable (_ ∨ _))

/-- The report on equal contents is empty. -/
theorem reportText_self (layout : Layout) (style : LineStyle) (bytes : List UInt8) :
    reportText layout style bytes bytes = [] := by
  refine List.flatMap_eq_nil_iff.mpr fun k _ => blockText_eq_nil_iff.mpr ?_
  exact not_not.mpr rfl

/-! ### What a comparer writes -/

namespace Comparer

variable {layout : Layout} {style : LineStyle} {c : Comparer}

/-- The piece written for a block is its text. -/
theorem blockReport_after (hc : Fits layout style c) (hwidth : style.offsetWidth ≤ Hex.maxWidth)
    (left right : List UInt8) (k : Nat) :
    (if (Block.ofContents layout.lineLength left right k).mask.differs ∧
        c.style.offsetWidth ≤ Hex.maxWidth then
        [c.blockReport (.after layout.lineLength left right k)
          (.ofContents layout.lineLength left right k)]
      else []).flatten = blockText layout style left right k := by
  rw [Block.differs_ofContents, hc.style_eq, blockText]
  by_cases hdiffers : BlockDiffers layout.lineLength left right k
  · rw [if_pos ⟨decide_eq_true hdiffers, hwidth⟩, if_neg hdiffers, List.flatten_singleton,
      blockReport, Block.report, connector, hc.layout_eq, hc.style_eq]
    simp only [Progress.after, decide_eq_true_eq]
    rfl
  · have hsame : window layout.lineLength left k = window layout.lineLength right k :=
      not_not.mp hdiffers
    rw [if_neg (by simpa using fun hd => absurd hd hdiffers), if_pos hsame, List.flatten_nil]

/-- The pieces written for several blocks in a row are their texts. -/
theorem flatten_pieces (hc : Fits layout style c) (hwidth : style.offsetWidth ≤ Hex.maxWidth)
    (left right : List UInt8) (k m : Nat) :
    (c.pieces (.after layout.lineLength left right k)
        ((List.range' k m).map (Block.ofContents layout.lineLength left right))).flatten =
      (List.range' k m).flatMap (blockText layout style left right) := by
  induction m generalizing k with
  | zero => rfl
  | succ m ih =>
    rw [List.range'_succ, List.map_cons, List.flatMap_cons, pieces, List.flatten_append,
      blockReport_after hc hwidth, hc.layout_eq, Progress.advance_after, ih]

/-- Some block of two contents differs exactly if they are not equal. -/
theorem exists_differs_iff {lineLength : Nat} (h : 1 ≤ lineLength) (left right : List UInt8) :
    (∃ block ∈ (List.range (blockCount lineLength left right)).map
        (Block.ofContents lineLength left right), block.mask.differs) ↔ left ≠ right := by
  constructor
  · rintro ⟨block, hblock, hdiffers⟩ rfl
    obtain ⟨k, -, rfl⟩ := List.mem_map.mp hblock
    rw [Block.differs_ofContents, decide_eq_true_iff] at hdiffers
    exact hdiffers rfl
  · intro hne
    obtain ⟨i, hi⟩ : (differingPositions left right).Nonempty :=
      Finset.nonempty_iff_ne_empty.mpr (mt differingPositions_eq_empty_iff.mp hne)
    have hk : i / lineLength ∈ (differingPositions left right).image (· / lineLength) :=
      Finset.mem_image_of_mem _ hi
    rw [image_differingPositions h, Finset.mem_filter, Finset.mem_range] at hk
    refine ⟨_, List.mem_map.mpr ⟨i / lineLength, List.mem_range.mpr hk.1, rfl⟩, ?_⟩
    rw [Block.differs_ofContents]
    exact decide_eq_true hk.2

/-- What comes of a run on streams that deliver two contents: the report is written in some pieces,
as far as they go through, and if they all do, the run ends with the counters of the contents.  A
style that cannot show the contents has no pieces, and the run breaks off. -/
theorem exists_pieces_run {σ : Type} [Outlet σ] (hc : Fits layout style c) {left right : Source}
    {lft rgt : List UInt8} (hleft : left.Delivers lft none) (hright : right.Delivers rgt none)
    (output : σ) :
    ∃ pieces : List (List Char),
      pieces.flatten = (if style.CanShow lft rgt then reportText layout style lft rgt else []) ∧
      (c.run left right output).output = (Outlet.writeAll output pieces).2 ∧
      (c.run left right output).outcome =
        ((Outlet.writeAll output pieces).1.mapError ReportError.fault).bind fun _ =>
          if style.CanShow lft rgt then .ok (Stats.ofContents layout.lineLength lft rgt)
          else .error (.overwide ⟨style.offsetWidth⟩) := by
  obtain ⟨hblocks, hfault⟩ := blocks_course hc hleft hright
  refine ⟨c.pieces {} (c.course left right).blocks, ?_, c.output_run left right output, ?_⟩
  · rcases Nat.lt_or_ge Hex.maxWidth style.offsetWidth with hwide | hwidth
    · rw [pieces_of_overwide (hc.style_eq ▸ hwide)]
      split
      · next hshow =>
        rw [hshow.resolve_left (Nat.not_le.mpr hwide), reportText_self]
        rfl
      · rfl
    · have hshow : style.CanShow lft rgt := Or.inl hwidth
      rw [if_pos hshow, hblocks, List.range_eq_range', ← Progress.after_zero layout.lineLength lft rgt,
        flatten_pieces hc hwidth, reportText, List.range_eq_range']
  · have hstuck : (Hex.maxWidth < c.style.offsetWidth ∧
        ∃ block ∈ (c.course left right).blocks, block.mask.differs) ↔ ¬style.CanShow lft rgt := by
      rw [hblocks, exists_differs_iff hc.valid.1, hc.style_eq, LineStyle.CanShow, not_or, not_le]
    have hending : c.ending {} (c.course left right).blocks (c.course left right).fault =
        if style.CanShow lft rgt then .ok (Stats.ofContents layout.lineLength lft rgt)
        else .error (.overwide ⟨style.offsetWidth⟩) := by
      by_cases hshow : style.CanShow lft rgt
      · rw [if_pos hshow]
        refine (if_neg (not_not.mpr hshow ∘ hstuck.mp)).trans ?_
        rw [hfault, hblocks, List.range_eq_range', ← Progress.after_zero layout.lineLength lft rgt,
          hc.layout_eq, Progress.advanceAll_after, Nat.zero_add,
          Progress.stats_after_blockCount hc.valid.1]
      · rw [if_neg hshow, ← hc.style_eq]
        exact if_pos (hstuck.mpr hshow)
    rw [outcome_run, hending]

/-- To an output that refuses nothing the whole report is written, if the style can show it. -/
theorem run_of_lossless {σ : Type} [Outlet σ] (hc : Fits layout style c) {left right : Source}
    {lft rgt : List UInt8} (hleft : left.Delivers lft none) (hright : right.Delivers rgt none)
    (hshow : style.CanShow lft rgt) (view : Outlet.Lossless σ) {output : σ}
    (hopen : view.Open output) :
    (c.run left right output).outcome = .ok (Stats.ofContents layout.lineLength lft rgt) ∧
      view.arrived (c.run left right output).output =
        view.arrived output ++ utf8 (reportText layout style lft rgt) := by
  obtain ⟨pieces, hreport, houtput, houtcome⟩ := exists_pieces_run hc hleft hright output
  obtain ⟨output', hwrite, -, harrived⟩ := view.exists_writeAll hopen pieces
  rw [if_pos hshow] at hreport houtcome
  rw [houtcome, houtput, hwrite, harrived, hreport]
  exact ⟨rfl, rfl⟩

/-- Otherwise nothing is written, and the run breaks off. -/
theorem run_of_not_canShow {σ : Type} [Outlet σ] (hc : Fits layout style c) {left right : Source}
    {lft rgt : List UInt8} (hleft : left.Delivers lft none) (hright : right.Delivers rgt none)
    (hshow : ¬style.CanShow lft rgt) (view : Outlet.Lossless σ) {output : σ}
    (hopen : view.Open output) :
    (c.run left right output).outcome = .error (.overwide ⟨style.offsetWidth⟩) ∧
      view.arrived (c.run left right output).output = view.arrived output := by
  obtain ⟨pieces, hreport, houtput, houtcome⟩ := exists_pieces_run hc hleft hright output
  obtain ⟨output', hwrite, -, harrived⟩ := view.exists_writeAll hopen pieces
  rw [if_neg hshow] at hreport houtcome
  rw [houtcome, houtput, hwrite, harrived, hreport]
  exact ⟨rfl, List.append_nil _⟩

/-- A comparer that fits can be built exactly for a valid layout and a style of its line length. -/
theorem exists_ofStyle?_iff :
    (∃ c, ofStyle? layout style = .ok c) ↔
      layout.Valid ∧ style.capacity = layout.lineLength := by
  constructor
  · rintro ⟨c, hc⟩
    obtain ⟨hvalid, hcapacity, -⟩ := ofStyle?_eq_ok_iff.mp hc
    exact ⟨hvalid, hcapacity⟩
  · rintro ⟨hvalid, hcapacity⟩
    exact ⟨_, ofStyle?_eq_ok_iff.mpr ⟨hvalid, hcapacity, rfl⟩⟩

end Comparer

/-! ### The report as a text -/

/-- With a valid layout, a comparison in memory writes the report in some pieces, as far as they go
through, and if they all do, it ends with the counters of the contents. -/
theorem exists_compareBytes_eq {σ : Type} [Outlet σ] {layout : Layout} (h : layout.Valid)
    (left right : List UInt8) (output : σ) :
    ∃ (result : RunResult σ) (pieces : List (List Char)),
      compareBytes layout left right output = .ok result ∧
      pieces.flatten = reportText layout (.ofLayout layout) left right ∧
      result.output = (Outlet.writeAll output pieces).2 ∧
      result.outcome = ((Outlet.writeAll output pieces).1.mapError ReportError.fault).bind fun _ =>
        .ok (Stats.ofContents layout.lineLength left right) := by
  have hbuilt : ∃ c, Comparer.ofStyle? layout (.ofLayout layout) = .ok c :=
    Comparer.exists_ofStyle?_iff.mpr ⟨h, rfl⟩
  have hshow : (LineStyle.ofLayout layout).CanShow left right :=
    Or.inl (LineStyle.offsetWidth_ofLayout_le h)
  obtain ⟨c, hc⟩ := hbuilt
  obtain ⟨pieces, hreport, houtput, houtcome⟩ :=
    Comparer.exists_pieces_run (Comparer.fits_of_ofStyle? hc) (Source.delivers_ofBytes left)
      (Source.delivers_ofBytes right) output
  rw [if_pos hshow] at hreport houtcome
  refine ⟨c.run (.ofBytes left) (.ofBytes right) output, pieces, ?_, hreport, houtput, houtcome⟩
  unfold compareBytes Comparer.ofLayout?
  rw [hc]
  rfl

/-- With a valid layout, a comparison in memory leaves the report as a text. -/
theorem exists_compareBytes_text_eq {layout : Layout} (h : layout.Valid)
    (left right : List UInt8) :
    ∃ result, compareBytes layout left right "" = .ok result ∧
      result.outcome = .ok (Stats.ofContents layout.lineLength left right) ∧
      result.output = String.ofList (reportText layout (.ofLayout layout) left right) := by
  obtain ⟨result, pieces, hresult, hreport, houtput, houtcome⟩ :=
    exists_compareBytes_eq h left right ""
  rw [Outlet.writeAll_text, String.empty_append, hreport] at houtput
  rw [Outlet.writeAll_text] at houtcome
  exact ⟨result, hresult, houtcome, houtput⟩

/-- With a valid layout, the bytes of the report are those of a text, and this text is the report. -/
theorem diffText_of_valid {layout : Layout} (h : layout.Valid) (left right : List UInt8) :
    diffText layout left right =
      .ok (String.ofList (reportText layout (.ofLayout layout) left right)) := by
  obtain ⟨result, pieces, hresult, hreport, houtput, houtcome⟩ :=
    exists_compareBytes_eq h left right ({} : Sink)
  obtain ⟨sink, hwrite, -, harrived⟩ :=
    Outlet.losslessSink.exists_writeAll (rfl : ({} : Sink).room = none) pieces
  have hwritten : sink.written =
      (String.ofList (reportText layout (.ofLayout layout) left right)).toUTF8.data := by
    rw [← Array.toList_inj, ← utf8_toList, String.toList_ofList, ← hreport]
    exact harrived.trans (List.nil_append _)
  rw [hwrite] at houtput houtcome
  unfold diffText
  rw [hresult]
  dsimp only [bind, Except.bind]
  rw [houtcome, houtput, hwritten, readUtf8_toUTF8]
  rfl

/-- A layout that is not valid is refused before anything is compared. -/
theorem diffText_of_check {layout : Layout} {e : LayoutError} (h : layout.check = .error e)
    (left right : List UInt8) : diffText layout left right = .error (.layout e) := by
  unfold diffText compareBytes Comparer.ofLayout? Comparer.ofStyle?
  rw [h]
  rfl

/-- So there is no text for such a layout, and what is in the way is the layout. -/
theorem exists_diffText_eq_error {layout : Layout} (h : ¬layout.Valid) (left right : List UInt8) :
    ∃ e, diffText layout left right = .error (.layout e) := by
  cases hcheck : layout.check with
  | ok _ => exact absurd (layout.check_eq_ok_iff.mp hcheck) h
  | error e => exact ⟨e, diffText_of_check hcheck left right⟩

/-- **The report on two contents.**  Comparers can be built for the valid layouts and the styles of
their line length.  Let there be a column for the offsets of the style.  Whatever such a comparer has
been used for before, it compares any two contents without a fault, and an output that refuses
nothing gets exactly the report on them, made of the lines that the style writes by themselves.  The
report as a text is had for the valid layouts and for no others, and what is in the way is never a
fault, of the bytes that were collected either. -/
theorem run_writes_reportText (layout : Layout) (style : LineStyle) (left right : List UInt8) :
    ((∃ c, Comparer.ofStyle? layout style = .ok c) ↔
        layout.Valid ∧ style.capacity = layout.lineLength) ∧
      (style.offsetWidth ≤ Hex.maxWidth →
        (∀ c, Comparer.Reachable layout style c →
          ∀ {σ : Type} [Outlet σ] (view : Outlet.Lossless σ) (output : σ), view.Open output →
            (∃ stats, (c.run (.ofBytes left) (.ofBytes right) output).outcome = .ok stats) ∧
              view.arrived (c.run (.ofBytes left) (.ofBytes right) output).output =
                view.arrived output ++ utf8 (reportText layout style left right)) ∧
          ∀ offset window flags, style.lineOnto "" offset window flags =
            .ok (String.ofList (style.line offset window flags))) ∧
      (layout.Valid → diffText layout left right =
        .ok (String.ofList (reportText layout (.ofLayout layout) left right))) ∧
      ((∃ e, diffText layout left right = .error e) ↔ ¬layout.Valid) ∧
      ∀ fault, diffText layout left right ≠ .error (.fault fault) := by
  refine ⟨Comparer.exists_ofStyle?_iff, ?_, fun hvalid => diffText_of_valid hvalid left right,
    ?_, ?_⟩
  · intro hwidth
    constructor
    · intro c hc σ _ view output hopen
      obtain ⟨houtcome, harrived⟩ := Comparer.run_of_lossless hc.fits
        (Source.delivers_ofBytes left) (Source.delivers_ofBytes right) (Or.inl hwidth) view hopen
      exact ⟨⟨_, houtcome⟩, harrived⟩
    · intro offset window flags
      rw [LineStyle.lineOnto, LineStyle.rowOnto_eq hwidth, String.empty_append]
      rfl
  · constructor
    · rintro ⟨e, he⟩ hvalid
      rw [diffText_of_valid hvalid] at he
      cases he
    · intro hvalid
      obtain ⟨e, he⟩ := exists_diffText_eq_error hvalid left right
      exact ⟨.layout e, he⟩
  · intro fault hfault
    by_cases hvalid : layout.Valid
    · rw [diffText_of_valid hvalid] at hfault
      cases hfault
    · obtain ⟨e, he⟩ := exists_diffText_eq_error hvalid left right
      rw [he] at hfault
      cases hfault

/-- Twelve bytes against twelve others, four to a line: the first two blocks differ, and a row of
dots connects them. -/
theorem run_writes_reportText_connected :
    ∃ c, Comparer.ofStyle? ⟨4, 4, {}⟩ ⟨4, 4, []⟩ = .ok c ∧
      (∃ stats, (c.run (.ofBytes (utf8 "AAAABBBBCCCC".toList))
        (.ofBytes (utf8 "AAAXBBBXCCCC".toList)) "").outcome = .ok stats) ∧
      diffText ⟨4, 4, {}⟩ (utf8 "AAAABBBBCCCC".toList) (utf8 "AAAXBBBXCCCC".toList) =
        .ok ("\n0000:   41 41 41(41)\n0000:   41 41 41(58)\n" ++
          "....\n0004:   42 42 42(42)\n0004:   42 42 42(58)\n") := by
  obtain ⟨hbuilt, hrun, htext, -⟩ := run_writes_reportText ⟨4, 4, {}⟩ ⟨4, 4, []⟩
    (utf8 "AAAABBBBCCCC".toList) (utf8 "AAAXBBBXCCCC".toList)
  obtain ⟨c, hc⟩ := hbuilt.mpr (by decide)
  refine ⟨c, hc, ((hrun (by decide)).1 c (.built hc) Outlet.losslessText "" trivial).1, ?_⟩
  rw [htext (by decide)]
  decide +kernel

/-- With offsets of one digit more than a column has, one byte against another cannot be shown, and
the run breaks off with nothing written. -/
theorem run_breaks_off_overwide :
    ∃ c, Comparer.ofStyle? ⟨1, 1, {}⟩ ⟨1, 65536, []⟩ = .ok c ∧
      (c.run (.ofBytes [0]) (.ofBytes [1]) "").outcome = .error (.overwide ⟨65536⟩) ∧
      (c.run (.ofBytes [0]) (.ofBytes [1]) "").output.toList = [] ∧
      reportText ⟨1, 1, {}⟩ ⟨1, 65536, []⟩ [0] [1] ≠ [] := by
  have hbuilt : ∃ c, Comparer.ofStyle? ⟨1, 1, {}⟩ ⟨1, 65536, []⟩ = .ok c :=
    Comparer.exists_ofStyle?_iff.mpr (by decide)
  obtain ⟨c, hc⟩ := hbuilt
  have hshow : ¬LineStyle.CanShow ⟨1, 65536, []⟩ [0] [1] := by decide
  obtain ⟨houtcome, harrived⟩ := Comparer.run_of_not_canShow (Comparer.fits_of_ofStyle? hc)
    (Source.delivers_ofBytes [0]) (Source.delivers_ofBytes [1]) hshow Outlet.losslessText
    (trivial : Outlet.losslessText.Open "")
  have hdiffers : BlockDiffers 1 [0] [1] 0 := by decide
  refine ⟨c, hc, houtcome, utf8_eq_nil_iff.mp harrived, fun hnil => ?_⟩
  have hblock : blockText ⟨1, 1, {}⟩ ⟨1, 65536, []⟩ [0] [1] 0 = [] :=
    List.flatMap_eq_nil_iff.mp hnil 0 (List.mem_range.mpr (hdiffers.lt le_rfl))
  exact blockText_eq_nil_iff.mp hblock hdiffers

end HexDiff
