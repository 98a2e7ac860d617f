import HexDiff.Proofs.Places

/-!
# The columns of a line and the runs of its mask

In a line the brackets stand around the runs of the mask: one opens before the first position of a
run and one closes behind its last.  Together with the places of all else this says what a line is,
whatever its style, its offset and its window, and behind whatever text it is written
(`LineStyle.lineOnto_laidOut`).

A style can ask for a column for its offsets that is wider than any.  Then there still is a text in
which everything would stand in its place, but it is not written, and neither is any other
(`LineStyle.no_line_overwide`).
-/

namespace HexDiff
namespace LineStyle

/-- The line of a window under a mask is the one text in which everything stands in its place. -/
theorem laidOut_iff_eq_line {style : LineStyle} {flags : List Bool}
    (hflags : flags.length = style.capacity) (offset : Nat) (window : List UInt8)
    (text : List Char) :
    style.LaidOut offset missingByte (fun i => window[i]?)
        (fun i => ∃ run ∈ Mask.runs ⟨flags⟩, run.start = i)
        (fun i => ∃ run ∈ Mask.runs ⟨flags⟩, run.stop = i + 1) window text ↔
      text = style.line offset window flags := by
  have hline : style.LaidOut offset missingByte (fun i => window[i]?)
      (fun i => ∃ run ∈ Mask.runs ⟨flags⟩, run.start = i)
      (fun i => ∃ run ∈ Mask.runs ⟨flags⟩, run.stop = i + 1) window
      (style.line offset window flags) := by
    have hrow := laidOut_row style offset length_missingByte (window.map some) hflags window
    refine hrow.congr (fun i _ => ?_) (fun i _ => ?_) (fun i _ => ?_)
    · exact join_getElem?_map_some window i
    · exact (Mask.exists_run_start_iff ⟨flags⟩ i).symm
    · exact (Mask.exists_run_stop_iff ⟨flags⟩ i).symm
  constructor
  · intro h
    exact h.unique hline
  · rintro rfl
    exact hline

/-- **The column layout of a line.**  Let there be a flag for each position of a line, and write the
line of a window behind some text.  If there can be a column for its offset, what is added is the one
text in which everything stands in its place: the digits of the offset and a colon, the bytes of the
window with a mark for each position past its end, a bracket before the first position of each run
of the mask and one behind its last, spaces in all other columns, and the overlays of the window.
Otherwise no line is written. -/
theorem lineOnto_laidOut {style : LineStyle} {flags : List Bool}
    (hflags : flags.length = style.capacity) (before : String) (offset : Nat)
    (window : List UInt8) :
    (style.offsetWidth ≤ Hex.maxWidth →
      ∃ text : List Char,
        style.lineOnto before offset window flags = .ok (before ++ String.ofList text) ∧
          ∀ other, style.LaidOut offset missingByte (fun i => window[i]?)
              (fun i => ∃ run ∈ Mask.runs ⟨flags⟩, run.start = i)
              (fun i => ∃ run ∈ Mask.runs ⟨flags⟩, run.stop = i + 1) window other ↔
            other = text) ∧
      (Hex.maxWidth < style.offsetWidth →
        style.lineOnto before offset window flags = .error ⟨style.offsetWidth⟩) := by
  constructor
  · intro hwidth
    exact ⟨style.line offset window flags, lineOnto_eq_ok_iff.mpr ⟨hwidth, rfl⟩,
      laidOut_iff_eq_line hflags offset window⟩
  · intro hwide
    exact rowOnto_of_overwide hwide before offset missingByte (window.map some) flags window

/-- Ten positions and an offset wider than its column, in the second line of a text.  The first run
is one position, and the second one goes over the border of a group and up to the end, past the
window. -/
theorem lineOnto_laidOut_long_run :
    [true, false, false, false, false, false, false, true, true, true].length = 10 ∧
      lineOnto ⟨10, 4, [.ascii]⟩ "before\n" 0x12340 [65, 66, 67, 68, 69, 70, 71, 72, 73]
          [true, false, false, false, false, false, false, true, true, true] =
        .ok "before\n12340:  (41)42 43 44 45 46 47(48  49 --)  ABCDEFGHI" ∧
      (⟨10, 4, [.ascii]⟩ : LineStyle).LaidOut 0x12340 missingByte
        (fun i => ([65, 66, 67, 68, 69, 70, 71, 72, 73] : List UInt8)[i]?)
        (fun i => ∃ run ∈ [(⟨0, 1⟩ : Run), ⟨7, 10⟩], run.start = i)
        (fun i => ∃ run ∈ [(⟨0, 1⟩ : Run), ⟨7, 10⟩], run.stop = i + 1)
        [65, 66, 67, 68, 69, 70, 71, 72, 73]
        "12340:  (41)42 43 44 45 46 47(48  49 --)  ABCDEFGHI".toList := by
  have hflags : [true, false, false, false, false, false, false, true, true, true].length =
      (⟨10, 4, [.ascii]⟩ : LineStyle).capacity := rfl
  have hruns : Mask.runs ⟨[true, false, false, false, false, false, false, true, true, true]⟩ =
      [⟨0, 1⟩, ⟨7, 10⟩] := by decide +kernel
  have hshown : lineOnto ⟨10, 4, [.ascii]⟩ "before\n" 0x12340
      [65, 66, 67, 68, 69, 70, 71, 72, 73]
      [true, false, false, false, false, false, false, true, true, true] =
        .ok "before\n12340:  (41)42 43 44 45 46 47(48  49 --)  ABCDEFGHI" := by decide +kernel
  obtain ⟨text, hline, hlaidOut⟩ := (lineOnto_laidOut hflags "before\n" 0x12340
    [65, 66, 67, 68, 69, 70, 71, 72, 73]).1 (by decide)
  obtain rfl : text = "12340:  (41)42 43 44 45 46 47(48  49 --)  ABCDEFGHI".toList := by
    have htext : ("before\n" ++ String.ofList text).toList =
        ("before\n" ++ "12340:  (41)42 43 44 45 46 47(48  49 --)  ABCDEFGHI").toList :=
      congrArg String.toList (Except.ok.inj (hline.symm.trans hshown))
    rw [String.toList_append, String.toList_append] at htext
    exact String.toList_ofList.symm.trans (List.append_cancel_left htext)
  refine ⟨rfl, hshown, ?_⟩
  rw [← hruns]
  exact (hlaidOut _).mpr rfl

/-- With offsets of one digit more than a column has, one byte has no line, though there is a text
in which everything would stand in its place. -/
theorem no_line_overwide :
    (∃ text, (⟨1, 65536, []⟩ : LineStyle).LaidOut 0 missingByte (fun i => ([65] : List UInt8)[i]?)
        (fun i => ∃ run ∈ Mask.runs ⟨[false]⟩, run.start = i)
        (fun i => ∃ run ∈ Mask.runs ⟨[false]⟩, run.stop = i + 1) [65] text) ∧
      ∀ line, lineOnto ⟨1, 65536, []⟩ "" 0 [65] [false] ≠ .ok line := by
  have hwide : Hex.maxWidth < 65536 := by decide
  have hflags : [false].length = (⟨1, 65536, []⟩ : LineStyle).capacity := rfl
  refine ⟨⟨_, (laidOut_iff_eq_line hflags 0 [65] _).mpr rfl⟩, fun line hline => ?_⟩
  exact absurd (lineOnto_eq_ok_iff.mp hline).1 (Nat.not_le.mpr hwide)

end LineStyle
end HexDiff
