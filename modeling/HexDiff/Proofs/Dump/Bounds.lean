import HexDiff.Proofs.Dump.Range
import HexDiff.Proofs.Preconditions

/-!
# Dumps within words

A dump finds the beginning of its first row by a remainder and a difference.  For each row it adds
the line length to the offset of the row, even if the content ends much earlier, and the number of
each position.  `Dump.runChecked` is a dump with all of these numbers kept to words of sixty-four
bits, and with the part of the content that a row holds, and each byte of it, looked up.

If neither the content nor a line has more than `2 ^ 63 - 1` bytes, then nothing of this can fail
(`Dump.runChecked_eq`), wherever the range begins and ends.
-/

namespace HexDiff
namespace Dump

open Checked

/-- What a row shows at a position: a byte of the part from `low` to `high`, or nothing. -/
def cellChecked (content : List UInt8) (base low high i : Nat) : Except Breach (Option UInt8) := do
  let offset ← add base i
  if low ≤ offset ∧ offset ≤ high then
    let b ← index content offset
    return some b
  else return none

/-- The row of the block at `base`, as far as it is in the range from `first` to `final`: its bytes
and its text, if there is a column for its offset. -/
def rowChecked (style : LineStyle) (flags : List Bool) (lineLength : Nat) (content : List UInt8)
    (first final base : Nat) : Except Breach (List UInt8 × Except Hex.Overwide String) := do
  let behind ← add base lineLength
  let top ← sub behind 1
  let low := max first base
  let high := min final top
  let bytes ← sliceTo content low high
  let row ← style.rowChecked "" base DumpRow.blankByte (cellChecked content base low high) flags
    bytes
  let text : Except Hex.Overwide String := do
    let shown ← row
    return shown.push '\n'
  return (bytes, text)

/-- Writes the rows of the blocks from `base` on, up to the one that `final` lies in. -/
def writeRowsChecked {σ : Type} [Outlet σ] (style : LineStyle) (flags : List Bool)
    {lineLength : Nat} (hpos : 1 ≤ lineLength) (content : List UInt8) (first final base : Nat)
    (lines : Nat) (output : σ) (log : Array LogEntry) : Except Breach (DumpResult σ) :=
  if _hbase : base ≤ final then do
    let shown ← rowChecked style flags lineLength content first final base
    match shown.2 with
    | .error e => .ok ⟨.error (.overwide e), output, log⟩
    | .ok text =>
      let log' := log ++ (style.errors shown.1).map LogEntry.overlayError
      match Outlet.write output text.toList with
      | (.ok (), output') => do
        let lines' ← add lines 1
        match _hnext : add base lineLength with
        | .ok base' =>
          writeRowsChecked style flags hpos content first final base' lines' output' log'
        | .error breach => .error breach
      | (.error fault, output') => .ok ⟨.error (.fault fault), output', log'⟩
  else .ok ⟨.ok lines, output, log⟩
termination_by final + 1 - base
decreasing_by
  have hbase' : base' = base + lineLength := eq_of_add _hnext
  omega

/-- Writes the bytes from `first` to `last`, both included, in lines of at least one byte. -/
def writeRangeChecked {σ : Type} [Outlet σ] (layout : Layout) (hpos : 1 ≤ layout.lineLength)
    (content : List UInt8) (first : Nat) (last : Option Nat) (output : σ) :
    Except Breach (DumpResult σ) :=
  if content = [] then .ok ⟨.ok 0, output, #[]⟩
  else do
    let lastByte ← sub content.length 1
    let final := last.elim lastByte (min · lastByte)
    if final < first then return ⟨.ok 0, output, #[]⟩
    else
      let lead ← rem first layout.lineLength
      let base ← sub first lead
      let result ←
        writeRowsChecked (.ofLayout layout) (List.replicate layout.lineLength false) hpos content
          first final base 0 output #[]
      match result.outcome with
      | .ok lines => return { result with log := result.log.push (.dumped lines first final) }
      | .error _ => return result

/-- Layouts that pass the check show something on a line. -/
theorem lineLength_pos_of_check {layout : Layout} (h : layout.check = .ok ()) :
    1 ≤ layout.lineLength :=
  (layout.check_eq_ok_iff.mp h).1

/-- A dump with all numbers kept to words. -/
def runChecked {σ : Type} [Outlet σ] (layout : Layout) (content : List UInt8) (first : Nat)
    (last : Option Nat) (output : σ) : Except Breach (DumpResult σ) :=
  match hcheck : layout.check with
  | .error e => .ok ⟨.error (.layout e), output, #[]⟩
  | .ok () =>
    writeRangeChecked layout (lineLength_pos_of_check hcheck) content first last output

/-! ### Rows -/

variable {style : LineStyle} {flags : List Bool} {lineLength : Nat} {content : List UInt8}
  {first final base : Nat}

/-- A byte of the part that a row holds is there, and the other cells are blank. -/
theorem cellChecked_eq (hline : lineLength < 2 ^ 63) (hcontent : content.length < 2 ^ 63)
    (hfinal : final < content.length) (hbase : base ≤ final) {i : Nat} (hi : i < lineLength) :
    cellChecked content base (max first base) (min final (base + lineLength - 1)) i =
      .ok (shownAt content first final (base + i)) := by
  rw [cellChecked, add_of_lt (by omega), ok_bind, shownAt]
  by_cases hin : first ≤ base + i ∧ base + i ≤ final
  · rw [if_pos (by omega), if_pos hin, List.getElem?_eq_getElem (hin.2.trans_lt hfinal),
      index_of_getElem? (List.getElem?_eq_getElem (hin.2.trans_lt hfinal))]
    rfl
  · rw [if_neg (by omega), if_neg hin]
    rfl

/-- **A row.**  The row of a block that begins before the end of the range. -/
theorem rowChecked_eq (hstyle : style.capacity = lineLength) (hflags : flags.length = lineLength)
    (hpos : 1 ≤ lineLength) (hline : lineLength < 2 ^ 63) (hcontent : content.length < 2 ^ 63)
    (hfinal : final < content.length) (hrange : first ≤ final) (hfirst : first < base + lineLength)
    (hbase : base ≤ final) :
    rowChecked style flags lineLength content first final base =
      .ok (blockBytes lineLength content first final base,
        (DumpRow.mk base (first - base)
          (blockBytes lineLength content first final base)).textOnto style "" flags) := by
  have hbehind : base + lineLength < 2 ^ 64 := by omega
  have hhigh : min final (base + lineLength - 1) + 1 = min (final + 1) (base + lineLength) := by
    omega
  have hbytes : sliceTo content (max first base) (min final (base + lineLength - 1)) =
      .ok (blockBytes lineLength content first final base) := by
    rw [sliceTo_of_lt (by omega) (by omega), hhigh, blockBytes]
  rw [rowChecked, add_of_lt hbehind, ok_bind, sub_of_le (by omega), ok_bind]
  dsimp only
  rw [hbytes, ok_bind, LineStyle.rowChecked_eq (hflags.trans hstyle.symm), ok_bind]
  · rfl
  · intro i hi
    rw [hstyle] at hi
    rw [cellChecked_eq hline hcontent hfinal hbase hi, cells_block content first final base hi]

/-- The bytes of the range that are not before the block at `base`. -/
def bytesFrom (content : List UInt8) (first final base : Nat) : List UInt8 :=
  (content.drop (max first base)).take (final + 1 - max first base)

/-- The first of them are those of the block. -/
theorem take_bytesFrom (hfirst : first < base + lineLength) :
    (bytesFrom content first final base).take (lineLength - (first - base)) =
      blockBytes lineLength content first final base := by
  have htake : min (lineLength - (first - base)) (final + 1 - max first base) =
      min (final + 1) (base + lineLength) - max first base := by omega
  rw [bytesFrom, blockBytes, List.take_take, htake, List.drop_take]

/-- The others are those behind the block. -/
theorem drop_bytesFrom (hfirst : first < base + lineLength) :
    (bytesFrom content first final base).drop (lineLength - (first - base)) =
      bytesFrom content first final (base + lineLength) := by
  have hskip : max first base + (lineLength - (first - base)) = max first (base + lineLength) := by
    omega
  rw [bytesFrom, bytesFrom, List.drop_take, List.drop_drop, hskip, Nat.sub_sub, hskip]

/-- There are some exactly if the block begins before the end of the range. -/
theorem bytesFrom_eq_nil_iff (hfinal : final < content.length) (hrange : first ≤ final) :
    bytesFrom content first final base = [] ↔ final < base := by
  rw [bytesFrom, List.take_eq_nil_iff, List.drop_eq_nil_iff]
  omega

/-- **The rows of a range.**  No number in them is too large for a word, and what they look up is
there. -/
theorem writeRowsChecked_eq {σ : Type} [Outlet σ] (hstyle : style.capacity = lineLength)
    (hflags : flags.length = lineLength) (hpos : 1 ≤ lineLength) (hline : lineLength < 2 ^ 63)
    (hcontent : content.length < 2 ^ 63) (hfinal : final < content.length)
    (hrange : first ≤ final) (hfirst : first < base + lineLength) {lines : Nat}
    (hlines : lines ≤ base) (output : σ) (log : Array LogEntry) :
    writeRowsChecked style flags hpos content first final base lines output log =
      .ok (writeRows style flags lineLength base (first - base)
        (bytesFrom content first final base) lines output log) := by
  induction hn : final + 1 - base using Nat.strong_induction_on
    generalizing base lines output log with
  | _ n ih =>
    by_cases hbase : base ≤ final
    · have hmore : ¬(bytesFrom content first final base = [] ∨ lineLength ≤ first - base) := by
        rw [bytesFrom_eq_nil_iff hfinal hrange]
        omega
      rw [writeRowsChecked, dif_pos hbase, rowChecked_eq hstyle hflags hpos hline hcontent hfinal
        hrange hfirst hbase, ok_bind, writeRows, if_neg hmore, take_bytesFrom hfirst,
        drop_bytesFrom hfirst]
      dsimp only
      cases DumpRow.textOnto _ style "" flags with
      | error e => rfl
      | ok text =>
        dsimp only
        generalize Outlet.write output text.toList = written
        obtain ⟨outcome, output'⟩ := written
        cases outcome with
        | error fault => rfl
        | ok _ =>
          have hnone : first - (base + lineLength) = 0 := by omega
          dsimp only
          rw [add_of_lt (by omega), ok_bind]
          split
          · next base' hnext =>
            obtain rfl := eq_of_add hnext
            rw [ih _ (by omega) (by omega) (by omega) output' _ rfl, hnone]
            rfl
          · next hnext =>
            rw [add_of_lt (by omega)] at hnext
            cases hnext
    · have hdone : bytesFrom content first final base = [] :=
        (bytesFrom_eq_nil_iff hfinal hrange).mpr (Nat.not_le.mp hbase)
      rw [writeRowsChecked, dif_neg hbase, hdone, writeRows, if_pos (Or.inl rfl)]

/-- The range of a content, in a layout that has passed the check. -/
theorem writeRangeChecked_eq {σ : Type} [Outlet σ] {layout : Layout}
    (hcheck : layout.check = .ok ()) (hpos : 1 ≤ layout.lineLength)
    (hline : layout.lineLength < 2 ^ 63) {content : List UInt8} (hcontent : content.length < 2 ^ 63)
    (first : Nat) (last : Option Nat) (output : σ) :
    writeRangeChecked layout hpos content first last output =
      .ok (run layout content first last output) := by
  rw [writeRangeChecked, run, hcheck]
  dsimp only
  by_cases hempty : content = []
  · rw [if_pos hempty, if_pos (Or.inl hempty)]
  · have hlength : 1 ≤ content.length := List.length_pos_iff.mpr hempty
    rw [if_neg hempty, sub_of_le hlength, ok_bind, elim_eq_lastOffset]
    by_cases hbehind : lastOffset content last < first
    · rw [if_pos hbehind, if_pos (Or.inr hbehind)]
      rfl
    · have hrange : ¬(content = [] ∨ lastOffset content last < first) :=
        not_or.mpr ⟨hempty, hbehind⟩
      have hmod : first % layout.lineLength < layout.lineLength := Nat.mod_lt first hpos
      have hmodle : first % layout.lineLength ≤ first := Nat.mod_le first _
      have hlead : first - (first - first % layout.lineLength) = first % layout.lineLength := by
        omega
      have hlow : max first (first - first % layout.lineLength) = first := by omega
      have hstyle : (LineStyle.ofLayout layout).capacity = layout.lineLength := rfl
      rw [if_neg hbehind, if_neg hrange, rem_of_pos hpos, ok_bind, sub_of_le hmodle, ok_bind,
        writeRowsChecked_eq hstyle List.length_replicate hpos hline hcontent (lastOffset_lt hrange)
          (Nat.le_of_not_lt hbehind) (by omega) (Nat.zero_le _), ok_bind, hlead, bytesFrom, hlow]
      generalize writeRows (.ofLayout layout) (List.replicate layout.lineLength false)
        layout.lineLength (first - first % layout.lineLength) (first % layout.lineLength)
        ((content.drop first).take (lastOffset content last + 1 - first)) 0 output #[] = result
      cases houtcome : result.outcome with
      | error e => rfl
      | ok lines => rfl

/-- **Dumps.**  A dump of a content of less than `2 ^ 63` bytes in lines of less than `2 ^ 63` bytes
needs no number that is not a word, and looks up nothing that is not there. -/
theorem runChecked_eq {σ : Type} [Outlet σ] {layout : Layout} (hline : layout.lineLength < 2 ^ 63)
    {content : List UInt8} (hcontent : content.length < 2 ^ 63) (first : Nat) (last : Option Nat)
    (output : σ) :
    runChecked layout content first last output = .ok (run layout content first last output) := by
  unfold runChecked
  split
  · next e hcheck => rw [run, hcheck]
  · next hcheck =>
    exact writeRangeChecked_eq hcheck (lineLength_pos_of_check hcheck) hline hcontent first last
      output

end Dump
end HexDiff
