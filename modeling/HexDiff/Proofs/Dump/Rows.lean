import HexDiff.Dump
import HexDiff.Proofs.Overlays.Rendering
import HexDiff.Proofs.TextLines
import HexDiff.Proofs.Writing

/-!
# The rows of a dump

A dump writes one row after the other and stops at the first one that is refused.  `Dump.rows` is
the rows alone, told without an output.  They are known one by one (`Dump.getElem?_rows`), and they
are what is written and what is counted (`Dump.writeRows_eq`).  So a dump is known from the pieces of
text it has for its range and from the number, or the refusal, that it ends with if they all go
through (`Dump.pieces`, `Dump.ending`): that is `Dump.output_run` and `Dump.outcome_run`.  A text
takes everything, so there a dump is the lines of its rows (`Dump.run_text`).
-/

namespace HexDiff

namespace DumpRow

/-- The text of a row without its line break. -/
def line (row : DumpRow) (style : LineStyle) (flags : List Bool) : List Char :=
  style.row row.base blankByte row.cells flags row.bytes

/-- The text of a row with its line break. -/
def text (row : DumpRow) (style : LineStyle) (flags : List Bool) : List Char :=
  row.line style flags ++ ['\n']

/-- This text is what is put together for a row. -/
theorem textOnto_eq (row : DumpRow) {style : LineStyle} (h : style.offsetWidth ≤ Hex.maxWidth)
    (flags : List Bool) :
    row.textOnto style "" flags = .ok (String.ofList (row.text style flags)) := by
  simp only [textOnto, LineStyle.rowOnto_eq h, text, line, String.empty_append,
    String.ofList_append]
  rfl

end DumpRow

namespace Dump

/-- The rows of some bytes, the first of which stands `lead` positions after `base`. -/
def rows (lineLength base lead : Nat) (bytes : List UInt8) : List DumpRow :=
  if bytes = [] ∨ lineLength ≤ lead then []
  else
    ⟨base, lead, bytes.take (lineLength - lead)⟩ ::
      rows lineLength (base + lineLength) 0 (bytes.drop (lineLength - lead))
termination_by bytes.length
decreasing_by
  have : bytes.length ≠ 0 := by simp_all
  simp only [List.length_drop]
  omega

/-! ### The rows one by one -/

section Rows

variable {lineLength lead : Nat} {bytes : List UInt8}

/-- The first row of some bytes, and the others. -/
theorem rows_eq_cons (hlead : lead < lineLength) (hbytes : bytes ≠ []) (base : Nat) :
    rows lineLength base lead bytes =
      ⟨base, lead, bytes.take (lineLength - lead)⟩ ::
        rows lineLength (base + lineLength) 0 (bytes.drop (lineLength - lead)) := by
  rw [rows, if_neg]
  rintro (hnil | hle)
  · exact hbytes hnil
  · omega

/-- The rows of no bytes. -/
theorem rows_nil (lineLength base lead : Nat) : rows lineLength base lead [] = [] := by
  rw [rows, if_pos (Or.inl rfl)]

/-- A row with its number. -/
theorem getElem?_rows (hlead : lead < lineLength) (hbytes : bytes ≠ []) (base : Nat) {j : Nat}
    (hj : j * lineLength < lead + bytes.length) :
    (rows lineLength base lead bytes)[j]? =
      some ⟨base + j * lineLength, lead - j * lineLength,
        (bytes.drop (j * lineLength - lead)).take (lineLength - (lead - j * lineLength))⟩ := by
  rw [rows_eq_cons hlead hbytes]
  induction j generalizing base lead bytes with
  | zero =>
    rw [List.getElem?_cons_zero, Nat.zero_mul, Nat.add_zero, Nat.sub_zero, Nat.zero_sub,
      List.drop_zero]
  | succ j ih =>
    -- what the first row leaves begins at the beginning of a line
    have hpos : 0 < lineLength := Nat.zero_lt_of_lt hlead
    rw [Nat.succ_mul] at hj ⊢
    have hrest : j * lineLength < 0 + (bytes.drop (lineLength - lead)).length := by
      rw [List.length_drop]
      omega
    have hne : bytes.drop (lineLength - lead) ≠ [] := by
      rw [← List.length_pos_iff]
      omega
    have hbase : base + lineLength + j * lineLength = base + (j * lineLength + lineLength) := by
      omega
    have hskip : lineLength - lead + (j * lineLength - 0) = j * lineLength + lineLength - lead := by
      omega
    have hnone : lead - (j * lineLength + lineLength) = 0 - j * lineLength := by omega
    rw [List.getElem?_cons_succ, rows_eq_cons hpos hne, ih hpos hne _ hrest, List.drop_drop, hbase,
      hskip, hnone]

/-- The number of rows. -/
theorem length_rows (hlead : lead < lineLength) (hbytes : bytes ≠ []) (base : Nat) :
    (rows lineLength base lead bytes).length = (lead + bytes.length - 1) / lineLength + 1 := by
  have hpos : 0 < lineLength := Nat.zero_lt_of_lt hlead
  fun_induction rows lineLength base lead bytes with
  | case1 base lead bytes h =>
    rcases h with hnil | hle
    · exact absurd hnil hbytes
    · omega
  | case2 base lead bytes h ih =>
    have hlength : 0 < bytes.length := List.length_pos_iff.mpr hbytes
    rw [List.length_cons, Nat.add_right_cancel_iff]
    by_cases hrest : bytes.drop (lineLength - lead) = []
    · have hle : bytes.length ≤ lineLength - lead := List.drop_eq_nil_iff.mp hrest
      rw [hrest, rows_nil, Nat.div_eq_of_lt (by omega)]
      rfl
    · have hlt : lineLength - lead < bytes.length := by
        rw [← Nat.not_le, ← List.drop_eq_nil_iff]
        exact hrest
      have hsplit : lead + bytes.length - 1 =
          0 + (bytes.drop (lineLength - lead)).length - 1 + lineLength := by
        rw [List.length_drop]
        omega
      rw [ih hpos hrest, hsplit, Nat.add_div_right _ hpos]

/-- The rows of some bytes hold these bytes. -/
theorem flatMap_bytes_rows (hlead : lead < lineLength) (base : Nat) :
    (rows lineLength base lead bytes).flatMap (·.bytes) = bytes := by
  fun_induction rows lineLength base lead bytes with
  | case1 base lead bytes h =>
    rcases h with rfl | hle
    · rfl
    · omega
  | case2 base lead bytes h ih =>
    rw [List.flatMap_cons, ih (Nat.zero_lt_of_lt hlead), List.take_append_drop]

/-- A row fits into a line. -/
theorem lead_add_length_le {base : Nat} {row : DumpRow}
    (hrow : row ∈ rows lineLength base lead bytes) : row.lead + row.bytes.length ≤ lineLength := by
  fun_induction rows lineLength base lead bytes with
  | case1 base lead bytes h => cases hrow
  | case2 base lead bytes h ih =>
    rcases List.mem_cons.mp hrow with rfl | hrow
    · have htake := List.length_take_le (lineLength - lead) bytes
      have hlead : ¬lineLength ≤ lead := fun hle => h (Or.inr hle)
      dsimp only
      omega
    · exact ih hrow

end Rows

/-! ### Writing rows -/

variable {σ : Type} [Outlet σ]

/-- Writing rows is writing their texts, one after the other, as far as they go through.  If all of
them do, each has been counted. -/
theorem writeRows_eq {style : LineStyle} (hwidth : style.offsetWidth ≤ Hex.maxWidth)
    (flags : List Bool) (lineLength base lead : Nat) (bytes : List UInt8) (lines : Nat) (output : σ)
    (log : Array LogEntry) :
    let result := writeRows style flags lineLength base lead bytes lines output log
    let written := Outlet.writeAll output
      ((rows lineLength base lead bytes).map (·.text style flags))
    result.output = written.2 ∧
      result.outcome = (written.1.mapError ReportError.fault).bind fun _ =>
        .ok (lines + (rows lineLength base lead bytes).length) := by
  fun_induction writeRows style flags lineLength base lead bytes lines output log with
  | case1 base lead bytes lines output log h =>
    rw [rows, if_pos h]
    exact ⟨rfl, rfl⟩
  | case2 base lead bytes lines output log h row e htext =>
    rw [row.textOnto_eq hwidth] at htext
    cases htext
  | case3 base lead bytes lines output log h row text htext log' output' hwrite ih =>
    rw [row.textOnto_eq hwidth] at htext
    cases htext
    rw [String.toList_ofList] at hwrite
    rw [rows, if_neg h, List.map_cons, Outlet.writeAll, hwrite, List.length_cons,
      ← Nat.succ_eq_add_one, ← Nat.succ_add_eq_add_succ]
    exact ih
  | case4 base lead bytes lines output log h row text htext log' fault output' hwrite =>
    rw [row.textOnto_eq hwidth] at htext
    cases htext
    rw [String.toList_ofList] at hwrite
    rw [rows, if_neg h, List.map_cons, Outlet.writeAll, hwrite]
    exact ⟨rfl, rfl⟩

/-! ### Whole dumps -/

/-- The rows of the range from `first` to `last` of a content. -/
def rangeRows (lineLength : Nat) (content : List UInt8) (first : Nat) (last : Option Nat) :
    List DumpRow :=
  let final := lastOffset content last
  if content = [] ∨ final < first then []
  else
    rows lineLength (first - first % lineLength) (first % lineLength)
      ((content.drop first).take (final + 1 - first))

/-- The pieces of text of a dump; a layout that is not valid has none. -/
def pieces (layout : Layout) (content : List UInt8) (first : Nat) (last : Option Nat) :
    List (List Char) :=
  match layout.check with
  | .error _ => []
  | .ok () =>
    (rangeRows layout.lineLength content first last).map
      (·.text (.ofLayout layout) (List.replicate layout.lineLength false))

/-- What a dump ends with whose pieces all go through. -/
def ending (layout : Layout) (content : List UInt8) (first : Nat) (last : Option Nat) :
    Except ReportError Nat :=
  match layout.check with
  | .error e => .error (.layout e)
  | .ok () => .ok (rangeRows layout.lineLength content first last).length

/-- A dump writes its pieces, one after the other, as far as they go through. -/
theorem output_run (layout : Layout) (content : List UInt8) (first : Nat) (last : Option Nat)
    (output : σ) :
    (run layout content first last output).output =
      (Outlet.writeAll output (pieces layout content first last)).2 := by
  unfold run pieces rangeRows
  cases hcheck : layout.check with
  | error e => rfl
  | ok _ =>
    have hwidth := LineStyle.offsetWidth_ofLayout_le (layout.check_eq_ok_iff.mp hcheck)
    dsimp only
    split
    · rfl
    · rw [← (writeRows_eq hwidth _ _ _ _ _ 0 _ #[]).1]
      split <;> rfl

/-- A dump ends in the first write that is refused, or else with the number of its rows. -/
theorem outcome_run (layout : Layout) (content : List UInt8) (first : Nat) (last : Option Nat)
    (output : σ) :
    (run layout content first last output).outcome =
      ((Outlet.writeAll output (pieces layout content first last)).1.mapError
        ReportError.fault).bind fun _ => ending layout content first last := by
  unfold run pieces ending rangeRows
  cases hcheck : layout.check with
  | error e => rfl
  | ok _ =>
    have hwidth := LineStyle.offsetWidth_ofLayout_le (layout.check_eq_ok_iff.mp hcheck)
    dsimp only
    split
    · rfl
    · rw [← Nat.zero_add (rows _ _ _ _).length, ← (writeRows_eq hwidth _ _ _ _ _ 0 _ #[]).2]
      split <;> rfl

/-! ### Dumps as texts -/

/-- The lines of a dump. -/
def lines (layout : Layout) (content : List UInt8) (first : Nat) (last : Option Nat) :
    List (List Char) :=
  (rangeRows layout.lineLength content first last).map
    (·.line (.ofLayout layout) (List.replicate layout.lineLength false))

/-- With a valid layout, a dump to a text ends with the number of its lines, and the text is these
lines. -/
theorem run_text {layout : Layout} (h : layout.Valid) (content : List UInt8) (first : Nat)
    (last : Option Nat) :
    (run layout content first last "").outcome = .ok (lines layout content first last).length ∧
      (run layout content first last "").output =
        String.ofList (unlines (lines layout content first last)) := by
  have hcheck : layout.check = .ok () := layout.check_eq_ok_iff.mpr h
  have hpieces : (pieces layout content first last).flatten =
      unlines (lines layout content first last) := by
    rw [pieces, hcheck, unlines, lines, List.flatMap_map]
    rfl
  have hending : ending layout content first last =
      .ok (lines layout content first last).length := by
    rw [ending, hcheck, lines, List.length_map]
  rw [outcome_run, output_run, Outlet.writeAll_text, hpieces, hending, String.empty_append]
  exact ⟨rfl, rfl⟩

end Dump
end HexDiff
