import HexDiff.Proofs.Dump.Range
import HexDiff.Proofs.Overlays.Widths

/-!
# Overlays through all lines of a dump

Each line of a dump has the overlays of its own bytes.  `LineStyle.shownThrough` reads one of the
overlays through a whole text, from line to line: the bytes of a line tell how wide its overlays
are, and so where each of them begins and ends (`LineStyle.shownTexts_row`).

What is read in this way does not depend on where the lines break, as long as they break where the
overlay may be cut (`CutAt`).  An overlay that shows a character for each byte may be cut anywhere,
and a packed one between two units.  The rows of a dump are cut at the multiples of the line length,
so that the induction is on the rows (`Dump.flatMap_rows`).
-/

namespace HexDiff

/-! ### Reading the overlays of a line -/

namespace LineStyle

/-- The texts of some overlays for `n` bytes, cut out of what stands behind the columns. -/
def cutOverlays (n : Nat) : List Overlay → List Char → List (List Char)
  | [], _ => []
  | o :: overlays, text =>
    (text.drop 2).take (o.width n) :: cutOverlays n overlays (text.drop (2 + o.width n))

/-- The texts of the overlays of a line, for the bytes that the line shows. -/
def shownTexts (style : LineStyle) (line : List Char) : List (List Char) :=
  let columns := (line.dropWhile fun c => (Hex.digitValue? c).isSome).tail
  cutOverlays (shownBytes style.capacity line).length style.overlays
    (columns.drop (columnsWidth style.capacity + 1))

/-- What overlay `k` shows in the lines of a text, one after the other. -/
def shownThrough (style : LineStyle) (k : Nat) (text : String) : List Char :=
  (text.toList.splitOn '\n').flatMap fun line => (style.shownTexts line).getD k []

/-- Given overlays are cut apart where each of them ends. -/
theorem cutOverlays_flatMap {overlays : List Overlay} (h : ∀ o ∈ overlays, o.Given)
    (bytes : List UInt8) :
    cutOverlays bytes.length overlays (overlays.flatMap fun o => ' ' :: ' ' :: o.render bytes) =
      overlays.map (·.render bytes) := by
  induction overlays with
  | nil => rfl
  | cons o overlays ih =>
    obtain ⟨ho, hmore⟩ := List.forall_mem_cons.mp h
    have hwidth := Overlay.length_render ho bytes
    rw [List.flatMap_cons, cutOverlays, ← List.drop_drop, List.cons_append, List.cons_append,
      List.drop_succ_cons, List.drop_succ_cons, List.drop_zero, ← hwidth, List.take_left,
      List.drop_left, ih hmore, List.map_cons]

/-- A line shows the overlays of the bytes in its cells. -/
theorem shownTexts_row {style : LineStyle} (h : ∀ o ∈ style.overlays, o.Given) (offset : Nat)
    {blank : List Char} (hblank : blank.length = 2) (hread : Hex.readByte? blank = none)
    (cells : List (Option UInt8)) {flags : List Bool} (hflags : flags.length = style.capacity)
    {bytes : List UInt8}
    (hcells : (List.range style.capacity).filterMap (fun i => cells[i]?.join) = bytes) :
    style.shownTexts (style.row offset blank cells flags bytes) =
      style.overlays.map (·.render bytes) := by
  unfold shownTexts
  dsimp only
  rw [tail_dropWhile_row, List.drop_drop, ← Nat.add_assoc,
    drop_row_overlays style offset hblank cells hflags bytes,
    shownBytes_row style offset hblank hread cells hflags bytes, hcells]
  exact cutOverlays_flatMap h bytes

/-- An empty line shows no bytes. -/
theorem shownBytes_nil (capacity : Nat) : shownBytes capacity [] = [] := by
  refine List.filterMap_eq_nil_iff.mpr fun i _ => ?_
  rw [List.dropWhile_nil, List.tail_nil, List.drop_nil, List.take_nil]
  rfl

/-- Its overlays are empty too. -/
theorem getD_shownTexts_nil (style : LineStyle) (k : Nat) : (style.shownTexts []).getD k [] = [] := by
  have hnone : ∀ (n : Nat) (overlays : List Overlay), ∀ text ∈ cutOverlays n overlays [],
      text = [] := by
    intro n overlays
    induction overlays with
    | nil => exact fun _ htext => absurd htext List.not_mem_nil
    | cons o overlays ih =>
      rw [cutOverlays, List.drop_nil, List.drop_nil, List.take_nil]
      exact List.forall_mem_cons.mpr ⟨rfl, ih⟩
  rw [List.getD_eq_getElem?_getD]
  cases htext : (style.shownTexts [])[k]? with
  | none => rfl
  | some text => exact hnone _ _ text (List.mem_of_getElem? htext)

end LineStyle

/-! ### Cutting bytes apart -/

/-- A reading of bytes that may be cut behind every multiple of `m` bytes. -/
def CutAt (m : Nat) (f : List UInt8 → List Char) : Prop :=
  ∀ xs ys, m ∣ xs.length → f (xs ++ ys) = f xs ++ f ys

namespace CutAt

variable {m : Nat} {f : List UInt8 → List Char}

/-- Such a reading shows nothing for no bytes. -/
theorem nil (h : CutAt m f) : f [] = [] := by
  have htwice := h [] [] (Nat.dvd_zero m)
  exact List.self_eq_append_right.mp htwice

/-- A character for each byte may be cut anywhere. -/
theorem map (g : UInt8 → Char) : CutAt 1 (List.map g) :=
  fun _ _ _ => List.map_append

/-- Packed text may be cut between two units. -/
theorem packedText (α : Base40.Alphabet) : CutAt 2 (Overlay.packedText α) :=
  fun _ more h => Overlay.packedText_append α (Nat.mod_eq_zero_of_dvd h) more

end CutAt

/-- The overlays that show a character for each byte may be cut anywhere. -/
theorem Overlay.cutAt_one {o : Overlay} (h : o = .ascii ∨ o = .screenCode) : CutAt 1 o.render := by
  have hrender : o.render = fun window => (o.reading window).1 := funext o.render_eq
  rw [hrender]
  rcases h with rfl | rfl
  · exact CutAt.map asciiChar
  · exact CutAt.map ScreenCode.decodeByte

/-- The packed overlay may be cut between two units. -/
theorem Overlay.cutAt_two (α : Base40.Alphabet) : CutAt 2 (Overlay.base40 α).render := by
  have hrender : (base40 α).render = Overlay.packedText α := funext (base40 α).render_eq
  rw [hrender]
  exact CutAt.packedText α

/-- What the packed overlay shows by itself. -/
theorem Overlay.render_base40 (α : Base40.Alphabet) (window : List UInt8) :
    ∃ decoded, α.decode (window.take (2 * (window.length / 2))) = .ok decoded ∧
      (base40 α).render window =
        decoded.toList ++ if window.length % 2 = 1 then errorMarker else [] := by
  obtain ⟨decoded, hdecoded, hrender⟩ := renderOnto_base40 α "" window
  refine ⟨decoded, hdecoded, ?_⟩
  rw [render, hrender]
  split
  · rw [String.empty_append, String.toList_append, String.toList_ofList]
  · rw [String.empty_append, List.append_nil]

namespace Dump

/-- A reading of the rows of some bytes, if they are cut where it may be cut, is the reading of
these bytes. -/
theorem flatMap_rows {m lineLength lead : Nat} {f : List UInt8 → List Char} (hf : CutAt m f)
    (hline : m ∣ lineLength) (hdvd : m ∣ lead) (hlead : lead < lineLength) (base : Nat)
    (bytes : List UInt8) :
    (rows lineLength base lead bytes).flatMap (fun row => f row.bytes) = f bytes := by
  fun_induction rows lineLength base lead bytes with
  | case1 base lead bytes h =>
    rcases h with rfl | hle
    · exact hf.nil.symm
    · omega
  | case2 base lead bytes h ih =>
    rw [List.flatMap_cons, ih (Nat.dvd_zero m) (Nat.zero_lt_of_lt hlead)]
    by_cases hlong : lineLength - lead ≤ bytes.length
    · have htake : m ∣ (bytes.take (lineLength - lead)).length := by
        rw [List.length_take_of_le hlong]
        exact Nat.dvd_sub hline hdvd
      rw [← hf _ _ htake, List.take_append_drop]
    · -- the last row has all the bytes that are left, whatever their number
      have hall : bytes.length ≤ lineLength - lead := by omega
      rw [List.take_of_length_le hall, List.drop_of_length_le hall, hf.nil, List.append_nil]

/-! ### The overlays of all lines -/

section Lines

variable {layout : Layout} {content : List UInt8} {first : Nat} {last : Option Nat}

/-- The overlays in the line of a row are those of its bytes. -/
theorem shownTexts_line {row : DumpRow}
    (hrow : row ∈ rangeRows layout.lineLength content first last) :
    (LineStyle.ofLayout layout).shownTexts
        (row.line (.ofLayout layout) (List.replicate layout.lineLength false)) =
      layout.overlays.toList.map (·.render row.bytes) := by
  rw [rangeRows_eq_rows] at hrow
  have hgiven : ∀ o ∈ (LineStyle.ofLayout layout).overlays, o.Given :=
    fun _ => OverlaySet.given_of_mem
  exact LineStyle.shownTexts_row hgiven row.base rfl rfl row.cells List.length_replicate
    (DumpRow.filterMap_cells (lead_add_length_le hrow))

/-- What overlay `k` shows in the lines of a dump is what it shows for one row after the other. -/
theorem shownThrough_run (hvalid : layout.Valid) {k : Nat} {o : Overlay}
    (ho : layout.overlays.toList[k]? = some o) :
    (LineStyle.ofLayout layout).shownThrough k (run layout content first last "").output =
      (rangeRows layout.lineLength content first last).flatMap fun row => o.render row.bytes := by
  have hshown : ∀ row ∈ rangeRows layout.lineLength content first last,
      ((LineStyle.ofLayout layout).shownTexts
        (row.line (.ofLayout layout) (List.replicate layout.lineLength false))).getD k [] =
          o.render row.bytes := by
    intro row hrow
    rw [shownTexts_line hrow, List.getD_eq_getElem?_getD, List.getElem?_map, ho]
    rfl
  rw [LineStyle.shownThrough, splitOn_run hvalid, List.flatMap_append, List.flatMap_singleton,
    LineStyle.getD_shownTexts_nil, List.append_nil, lines, List.flatMap_map,
    List.flatMap_congr hshown]

/-- An overlay that may be cut where the lines break shows in them what it shows for the range. -/
theorem shownThrough_run_of_cutAt (hvalid : layout.Valid) {m k : Nat} {o : Overlay}
    (ho : layout.overlays.toList[k]? = some o) (hcut : CutAt m o.render)
    (hline : m ∣ layout.lineLength) (hfirst : m ∣ first) :
    (LineStyle.ofLayout layout).shownThrough k (run layout content first last "").output =
      o.render (range content first last) := by
  have hlead : m ∣ first % layout.lineLength := (Nat.dvd_mod_iff hline).mpr hfirst
  rw [shownThrough_run hvalid ho, rangeRows_eq_rows,
    flatMap_rows hcut hline hlead (Nat.mod_lt first hvalid.1)]

/-- A byte of a block stands as far behind the first one as it does in the content. -/
theorem getElem?_of_getElem?_blockBytes {lineLength final base i : Nat} {b : UInt8}
    (h : (blockBytes lineLength content first final base)[i]? = some b) :
    content[max first base + i]? = some b := by
  rw [blockBytes, List.getElem?_drop, List.getElem?_take] at h
  split at h
  · exact h
  · cases h

/-- Line `j` shows the bytes of its block in all its overlays. -/
theorem shown_line (hvalid : layout.Valid) {j : Nat} {line : List Char}
    (hline : ((run layout content first last "").output.toList.splitOn '\n')[j]? = some line)
    (hshown : LineStyle.shownBytes layout.lineLength line ≠ []) :
    LineStyle.shownBytes layout.lineLength line =
        blockBytes layout.lineLength content first (lastOffset content last)
          ((first / layout.lineLength + j) * layout.lineLength) ∧
      (LineStyle.ofLayout layout).shownTexts line =
        layout.overlays.toList.map (·.render (LineStyle.shownBytes layout.lineLength line)) := by
  rw [splitOn_run hvalid] at hline
  by_cases hj : j < (lines layout content first last).length
  · rw [List.getElem?_append_left hj, lines, List.getElem?_map] at hline
    obtain ⟨row, hrow, rfl⟩ := Option.map_eq_some_iff.mp hline
    have hmem := List.mem_of_getElem? hrow
    have hrange : ¬(content = [] ∨ lastOffset content last < first) := by
      intro hempty
      rw [rangeRows, if_pos hempty] at hmem
      cases hmem
    have hwithin := (List.getElem?_eq_some_iff.mp hrow).1
    rw [length_rangeRows hvalid.1 hrange] at hwithin
    rw [getElem?_rangeRows hvalid.1 hrange hwithin] at hrow
    obtain rfl := Option.some.inj hrow
    rw [shownBytes_line hmem]
    exact ⟨rfl, shownTexts_line hmem⟩
  · rw [List.getElem?_append_right (Nat.le_of_not_lt hj)] at hline
    obtain rfl := List.mem_singleton.mp (List.mem_of_getElem? hline)
    exact absurd (LineStyle.shownBytes_nil layout.lineLength) hshown

/-- A unit of packed text at a place of a content: the word of the two bytes that begin there if it
is a whole unit, and otherwise the mark of an error for a byte. -/
def UnitAt (α : Base40.Alphabet) (content : List UInt8) (place : Nat) (whole : Prop)
    (unit : List Char) : Prop :=
  ∃ lo, content[place]? = some lo ∧
    (whole → ∃ hi, content[place + 1]? = some hi ∧
      unit = α.decodeWord (Base40.wordOfBytes lo hi)) ∧
    (¬whole → unit = ['<', 'E', '>'])

/-- Unit `u` of the packed overlay of line `j` stands `2 * u` bytes behind the first byte of the
line. -/
theorem unitAt_line (hvalid : layout.Valid) {k : Nat} {α : Base40.Alphabet}
    (hk : layout.overlays.toList[k]? = some (.base40 α)) {j : Nat} {line : List Char}
    (hline : ((run layout content first last "").output.toList.splitOn '\n')[j]? = some line)
    {u : Nat} (hu : 2 * u < (LineStyle.shownBytes layout.lineLength line).length) :
    UnitAt α content
      (max first ((first / layout.lineLength + j) * layout.lineLength) + 2 * u)
      (2 * u + 1 < (LineStyle.shownBytes layout.lineLength line).length)
      (((((LineStyle.ofLayout layout).shownTexts line).getD k []).drop (3 * u)).take 3) := by
  obtain ⟨hbytes, htexts⟩ := shown_line hvalid hline
    (List.ne_nil_of_length_pos (Nat.zero_lt_of_lt hu))
  have htext : ((LineStyle.ofLayout layout).shownTexts line).getD k [] =
      Overlay.packedText α (LineStyle.shownBytes layout.lineLength line) := by
    rw [htexts, List.getD_eq_getElem?_getD, List.getElem?_map, hk, Option.map_some,
      Option.getD_some, Overlay.render_eq]
    rfl
  have hcontent : ∀ {i : Nat} {b : UInt8},
      (LineStyle.shownBytes layout.lineLength line)[i]? = some b →
        content[max first ((first / layout.lineLength + j) * layout.lineLength) + i]? =
          some b := by
    rw [hbytes]
    exact getElem?_of_getElem?_blockBytes
  have hlo := List.getElem?_eq_getElem hu
  rw [htext]
  refine ⟨_, hcontent hlo, fun hwhole => ?_, fun hcut => ?_⟩
  · have hhi := List.getElem?_eq_getElem hwhole
    exact ⟨_, hcontent hhi, Overlay.take_drop_packedText α hlo hhi⟩
  · exact Overlay.take_drop_packedText_of_length α (by omega)

end Lines

/-- **Overlays do not depend on where the lines break.**  With a valid layout, let a dump of the
bytes from one offset to another be read line by line.  What an overlay that shows a character for
each byte shows in all lines, one after the other, is what it shows for the bytes of the range.

Let the line length and the first offset be even.  Then what the packed overlay shows in all lines
is what the longest whole number of units in front of the range decodes to, with the mark of an
error behind it exactly if a byte is left over, and any other valid layout with an even line length
shows the same.  Each unit of a line begins with a byte of the content that stands at an even offset;
it is the word of this byte and the next one, or the mark if the line ends with this byte. -/
theorem overlays_through_lines {layout : Layout} (hvalid : layout.Valid) (content : List UInt8)
    (first : Nat) (last : Option Nat) :
    let final := last.elim (content.length - 1) (min · (content.length - 1))
    let range := (content.drop first).take (final + 1 - first)
    let style := LineStyle.ofLayout layout
    let text := (run layout content first last "").output
    (∃ lines, (run layout content first last "").outcome = .ok lines) ∧
    (∀ k o, layout.overlays.toList[k]? = some o → o = .ascii ∨ o = .screenCode →
      style.shownThrough k text = o.render range) ∧
    (layout.lineLength % 2 = 0 → first % 2 = 0 →
      ∀ k, layout.overlays.toList[k]? = some (.base40 .standard) →
        (∃ decoded, Base40.Alphabet.standard.decode (range.take (2 * (range.length / 2))) =
            .ok decoded ∧
          style.shownThrough k text =
            decoded.toList ++ if range.length % 2 = 1 then ['<', 'E', '>'] else []) ∧
        (∀ layout' : Layout, layout'.Valid → layout'.lineLength % 2 = 0 →
          ∀ k', layout'.overlays.toList[k']? = some (.base40 .standard) →
            (LineStyle.ofLayout layout').shownThrough k'
                (run layout' content first last "").output =
              style.shownThrough k text) ∧
        ∀ j line, (text.toList.splitOn '\n')[j]? = some line →
          ∀ u, 2 * u < (LineStyle.shownBytes layout.lineLength line).length →
            let place := max first ((first / layout.lineLength + j) * layout.lineLength) + 2 * u
            let unit := (((style.shownTexts line).getD k []).drop (3 * u)).take 3
            place % 2 = 0 ∧ UnitAt .standard content place
              (2 * u + 1 < (LineStyle.shownBytes layout.lineLength line).length) unit) := by
  intro final range style text
  have hrange : range = Dump.range content first last := by
    rw [Dump.range, ← elim_eq_lastOffset]
  refine ⟨⟨_, (run_text hvalid content first last).1⟩, fun k o hk ho => ?_,
    fun hline hfirst k hk => ⟨?_, fun layout' hvalid' hline' k' hk' => ?_,
      fun j line hj u hu => ?_⟩⟩
  · rw [hrange]
    exact shownThrough_run_of_cutAt hvalid hk (Overlay.cutAt_one ho) (Nat.one_dvd _)
      (Nat.one_dvd _)
  · rw [hrange, shownThrough_run_of_cutAt hvalid hk (Overlay.cutAt_two .standard)
      (Nat.dvd_of_mod_eq_zero hline) (Nat.dvd_of_mod_eq_zero hfirst)]
    exact Overlay.render_base40 .standard (Dump.range content first last)
  · rw [shownThrough_run_of_cutAt hvalid' hk' (Overlay.cutAt_two .standard)
        (Nat.dvd_of_mod_eq_zero hline') (Nat.dvd_of_mod_eq_zero hfirst),
      shownThrough_run_of_cutAt hvalid hk (Overlay.cutAt_two .standard)
        (Nat.dvd_of_mod_eq_zero hline) (Nat.dvd_of_mod_eq_zero hfirst)]
  · have hbase : (first / layout.lineLength + j) * layout.lineLength % 2 = 0 :=
      Nat.mod_eq_zero_of_dvd (Nat.dvd_mul_left_of_dvd (Nat.dvd_of_mod_eq_zero hline) _)
    exact ⟨by omega, unitAt_line hvalid hk hj hu⟩

/-- Seven bytes from the third on, in lines of four and in lines of six: the three words behind one
another are the same text, in three pieces or in two. -/
theorem overlays_through_lines_of_four_and_six :
    (⟨4, 4, { base40 := true, ascii := true }⟩ : Layout).Valid ∧
      (run ⟨4, 4, { base40 := true, ascii := true }⟩
          [255, 255, 0x9F, 0x15, 0xBD, 0x79, 0x17, 0x19, 0x41] 2 none "").output =
        "0000:         9F 15   CRO  ~~\n0004:   BD 79 17 19   SSED W  =y~~\n" ++
          "0008:   41            <E>  A\n" ∧
      (LineStyle.ofLayout ⟨4, 4, { base40 := true, ascii := true }⟩).shownThrough 1
          (run ⟨4, 4, { base40 := true, ascii := true }⟩
            [255, 255, 0x9F, 0x15, 0xBD, 0x79, 0x17, 0x19, 0x41] 2 none "").output =
        Overlay.ascii.render [0x9F, 0x15, 0xBD, 0x79, 0x17, 0x19, 0x41] ∧
      (LineStyle.ofLayout ⟨4, 4, { base40 := true, ascii := true }⟩).shownThrough 0
          (run ⟨4, 4, { base40 := true, ascii := true }⟩
            [255, 255, 0x9F, 0x15, 0xBD, 0x79, 0x17, 0x19, 0x41] 2 none "").output =
        "CROSSED W<E>".toList ∧
      (LineStyle.ofLayout ⟨6, 4, { base40 := true }⟩).shownThrough 0
          (run ⟨6, 4, { base40 := true }⟩
            [255, 255, 0x9F, 0x15, 0xBD, 0x79, 0x17, 0x19, 0x41] 2 none "").output =
        "CROSSED W<E>".toList := by
  have hvalid : (⟨4, 4, { base40 := true, ascii := true }⟩ : Layout).Valid := by decide
  obtain ⟨-, hchars, hpacked⟩ := overlays_through_lines hvalid
    [255, 255, 0x9F, 0x15, 0xBD, 0x79, 0x17, 0x19, 0x41] 2 none
  obtain ⟨⟨decoded, hdecoded, hfour⟩, hother, -⟩ := hpacked rfl rfl 0 rfl
  have hsix := hother ⟨6, 4, { base40 := true }⟩ (by decide) rfl 0 rfl
  have hwords : Base40.Alphabet.standard.decode [0x9F, 0x15, 0xBD, 0x79, 0x17, 0x19] =
      .ok "CROSSED W" := by decide +kernel
  obtain rfl := Except.ok.inj (hdecoded.symm.trans hwords)
  exact ⟨hvalid, by decide +kernel, hchars 1 .ascii rfl (Or.inl rfl), hfour, hsix.trans hfour⟩

end Dump
end HexDiff
