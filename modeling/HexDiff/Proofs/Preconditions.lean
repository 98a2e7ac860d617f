import HexDiff.Proofs.Chains
import HexDiff.Proofs.Marking
import HexDiff.Proofs.Overlays.Rendering
import HexDiff.Proofs.Places
import HexDiff.Proofs.Runs
import Mathlib.Algebra.Ring.Nat

/-!
# Preconditions

Masks, overlays and lines look into sequences and rely on what they are given: that a window is no
longer than its mask, that there is a flag for each position, that a place is inside.  A `Breach` is
a precondition that is not met, and `Checked` has the operations that look whether theirs is.  The
functions of this module do the work of masks, overlays and lines with all preconditions checked on
the way, and stop at the first breach.

For each of them there is one equation, which says under what conditions there is no breach and that
the result is then the one without the checks.  The conditions are few: two windows that are no
longer than the mask and not both empty for marking (`Mask.recomputeChecked_eq`), and a window that
is no longer than the line and as many flags as positions for a line (`LineStyle.lineChecked_eq`).
Overlays and runs have no conditions at all.
-/

namespace HexDiff

/-- A precondition that is not met. -/
inductive Breach where
  /-- A part of a sequence whose ends are not in order or not inside. -/
  | slice (start stop length : Nat)
  /-- A place that is not inside a sequence. -/
  | index (i length : Nat)
  /-- Marking a mask for windows longer than it. -/
  | mask (e : Mask.Overflow)
  /-- Marking a mask for two empty windows. -/
  | emptyWindows
  /-- A line for a window with more bytes than the line has positions. -/
  | window (length capacity : Nat)
  /-- A line under more or fewer flags than it has positions. -/
  | flags (length capacity : Nat)
  /-- A sum that is no word. -/
  | sum (a b : Nat)
  /-- A difference below zero. -/
  | difference (a b : Nat)
  /-- A remainder by zero. -/
  | remainder (a : Nat)
  deriving DecidableEq, Repr

namespace Checked

/-! ### Places and parts of sequences -/

variable {α : Type}

/-- The part of a sequence from position `start` up to position `stop`. -/
def slice (xs : List α) (start stop : Nat) : Except Breach (List α) :=
  if start ≤ stop ∧ stop ≤ xs.length then .ok ((xs.take stop).drop start)
  else .error (.slice start stop xs.length)

/-- The element at a place. -/
def index (xs : List α) (i : Nat) : Except Breach α :=
  match xs[i]? with
  | some x => .ok x
  | none => .error (.index i xs.length)

/-- A part inside the sequence. -/
theorem slice_of_le {xs : List α} {start stop : Nat} (h : start ≤ stop) (h' : stop ≤ xs.length) :
    slice xs start stop = .ok ((xs.take stop).drop start) :=
  if_pos ⟨h, h'⟩

/-- A part at the front of the sequence. -/
theorem slice_zero {xs : List α} {stop : Nat} (h : stop ≤ xs.length) :
    slice xs 0 stop = .ok (xs.take stop) :=
  slice_of_le (Nat.zero_le stop) h

/-- A place inside the sequence. -/
theorem index_of_getElem? {xs : List α} {i : Nat} {x : α} (h : xs[i]? = some x) :
    index xs i = .ok x := by
  rw [index, h]

/-- The part of a sequence from position `first` to position `last`, both included and inside. -/
def sliceTo (xs : List α) (first last : Nat) : Except Breach (List α) :=
  if first ≤ last ∧ last < xs.length then .ok ((xs.take (last + 1)).drop first)
  else .error (.slice first (last + 1) xs.length)

/-- A part inside the sequence, told by its last position. -/
theorem sliceTo_of_lt {xs : List α} {first last : Nat} (h : first ≤ last) (h' : last < xs.length) :
    sliceTo xs first last = .ok ((xs.take (last + 1)).drop first) :=
  if_pos ⟨h, h'⟩

/-! ### Words -/

/-- A sum that has to be a word of sixty-four bits. -/
def add (a b : Nat) : Except Breach Nat :=
  if a + b < 2 ^ 64 then .ok (a + b) else .error (.sum a b)

/-- A difference that must not be below zero. -/
def sub (a b : Nat) : Except Breach Nat :=
  if b ≤ a then .ok (a - b) else .error (.difference a b)

/-- A remainder by a number that must not be zero. -/
def rem (a b : Nat) : Except Breach Nat :=
  if b = 0 then .error (.remainder a) else .ok (a % b)

/-- A sum that is a word. -/
theorem add_of_lt {a b : Nat} (h : a + b < 2 ^ 64) : add a b = .ok (a + b) :=
  if_pos h

/-- What a sum is, if it is a word. -/
theorem eq_of_add {a b c : Nat} (h : add a b = .ok c) : c = a + b := by
  unfold add at h
  split at h
  · exact (Except.ok.inj h).symm
  · cases h

/-- A difference that is not below zero. -/
theorem sub_of_le {a b : Nat} (h : b ≤ a) : sub a b = .ok (a - b) :=
  if_pos h

/-- A remainder by a number that is not zero. -/
theorem rem_of_pos {a b : Nat} (h : 0 < b) : rem a b = .ok (a % b) :=
  if_neg h.ne'

end Checked

/-! ### Masks -/

namespace Mask

open Checked

/-- Sets the flags of a range that has to be inside. -/
def setRangeChecked (flags : List Bool) (start stop : Nat) (value : Bool) :
    Except Breach (List Bool) :=
  if start ≤ stop ∧ stop ≤ flags.length then .ok (setRange flags start stop value)
  else .error (.slice start stop flags.length)

/-- Marks a mask anew for two windows that are no longer than it and not both empty. -/
def recomputeChecked (m : Mask) (lft rgt : List UInt8) : Except Breach (Bool × Mask) :=
  let shorter := min lft.length rgt.length
  let longer := max lft.length rgt.length
  if m.flags.length < longer then .error (.mask ⟨longer, m.flags.length⟩)
  else if longer = 0 then .error .emptyWindows
  else do
    let (flags, different) := markShared false m.flags lft rgt
    let (flags, different) ←
      if shorter < longer then do
        let flags ← setRangeChecked flags shorter longer true
        pure (flags, true)
      else pure (flags, different)
    let flags ← setRangeChecked flags longer flags.length false
    return (different, ⟨flags⟩)

/-- A range inside is set. -/
theorem setRangeChecked_of_le {flags : List Bool} {start stop : Nat} (h : start ≤ stop)
    (h' : stop ≤ flags.length) (value : Bool) :
    setRangeChecked flags start stop value = .ok (setRange flags start stop value) :=
  if_pos ⟨h, h'⟩

/-- Marking a mask that is large enough for two windows that are not both empty. -/
theorem recomputeChecked_eq {m : Mask} {lft rgt : List UInt8}
    (hfit : max lft.length rgt.length ≤ m.capacity) (hne : ¬(lft.length = 0 ∧ rgt.length = 0)) :
    m.recomputeChecked lft rgt = .ok (decide (lft ≠ rgt), m.mark lft rgt) := by
  have hpos : max lft.length rgt.length ≠ 0 := by omega
  have hmarked : m.mark lft rgt = ⟨(remark m.flags lft rgt).1⟩ := rfl
  have hlength := length_markShared false m.flags lft rgt
  rw [hmarked, ← remark_snd_of_le hfit, recomputeChecked]
  rw [capacity] at hfit
  simp only [Nat.not_lt.mpr hfit, hpos, if_false]
  unfold remark
  generalize markShared false m.flags lft rgt = marked at *
  by_cases hlt : min lft.length rgt.length < max lft.length rgt.length
  · have hbehind : max lft.length rgt.length ≤
        (setRange marked.1 (min lft.length rgt.length) (max lft.length rgt.length) true).length := by
      rwa [length_setRange, hlength]
    simp only [hlt, if_true, setRangeChecked_of_le hlt.le (hlength.symm ▸ hfit), ok_bind,
      pure_bind, setRangeChecked_of_le hbehind le_rfl]
    rfl
  · simp only [hlt, if_false, pure_bind, setRangeChecked_of_le (hlength.symm ▸ hfit) le_rfl,
      ok_bind]
    rfl

/-! ### Runs -/

/-- The first place from position `i` on whose flag is not of one value, or the end. -/
def skipChecked (value : Bool) (flags : List Bool) (i : Nat) : Except Breach Nat :=
  if _hi : i < flags.length then do
    let flag ← index flags i
    if flag = value then skipChecked value flags (i + 1) else return i
  else return i
termination_by flags.length - i

/-- The first run from position `i` on, if there is one. -/
def nextChecked (flags : List Bool) (i : Nat) : Except Breach (Option Run) := do
  let start ← skipChecked false flags i
  if start = flags.length then return none
  else
    let stop ← skipChecked true flags start
    return some ⟨start, stop⟩

/-- A walk over flags that are looked up one by one gets as far as the walk along them. -/
theorem skipChecked_eq (value : Bool) (flags : List Bool) (i : Nat) :
    skipChecked value flags i = .ok (Cursor.skip value i (flags.drop i)).position := by
  fun_induction skipChecked value flags i with
  | case1 i hi ih =>
    rw [index_of_getElem? (List.getElem?_eq_getElem hi), ok_bind,
      List.drop_eq_getElem_cons hi, Cursor.skip]
    split
    · exact ih
    · rfl
  | case2 i hi =>
    rw [List.drop_eq_nil_of_le (Nat.not_lt.mp hi), Cursor.skip]
    rfl

/-- The flags that were moved over and those that are left make up what there was. -/
theorem position_add_length_skip (value : Bool) (i : Nat) (flags : List Bool) :
    (Cursor.skip value i flags).position + (Cursor.skip value i flags).flags.length =
      i + flags.length := by
  fun_induction Cursor.skip value i flags with
  | case1 i => rfl
  | case2 i flags ih =>
    rw [ih, List.length_cons]
    omega
  | case3 => rfl

/-- A look for a run from a place inside the mask or at its end. -/
theorem nextChecked_eq {flags : List Bool} {i : Nat} (hi : i ≤ flags.length) :
    nextChecked flags i = .ok ((Cursor.next? ⟨i, flags.drop i⟩).map (·.1)) := by
  have hat : (Cursor.skip false i (flags.drop i)).At ⟨flags⟩ :=
    (Cursor.at_skip (m := ⟨flags⟩) false rfl).1
  have hsum := position_add_length_skip false i (flags.drop i)
  rw [List.length_drop, Nat.add_sub_cancel' hi] at hsum
  rw [nextChecked, skipChecked_eq, ok_bind, Cursor.next?]
  dsimp only
  generalize Cursor.skip false i (flags.drop i) = first at *
  have hend : first.position = flags.length ↔ first.flags = [] := by
    rw [← List.length_eq_zero_iff]
    omega
  by_cases hnil : first.flags = []
  · rw [if_pos (hend.mpr hnil), if_pos hnil]
    rfl
  · have hflags : flags.drop first.position = first.flags := hat
    rw [if_neg (mt hend.mp hnil), if_neg hnil, skipChecked_eq, ok_bind, hflags]
    rfl

/-- The run that such a look finds is behind the place, and inside the mask. -/
theorem stop_of_nextChecked {flags : List Bool} {i : Nat} (hi : i ≤ flags.length) {run : Run}
    (h : nextChecked flags i = .ok (some run)) : i < run.stop ∧ run.stop ≤ flags.length := by
  rw [nextChecked_eq hi] at h
  obtain ⟨⟨run', behind⟩, hnext, rfl⟩ := Option.map_eq_some_iff.mp (Except.ok.inj h)
  have hstart : Cursor.At ⟨i, flags.drop i⟩ ⟨flags⟩ := rfl
  obtain ⟨hrun, -, -⟩ := Cursor.firstFrom_of_next? hstart hnext
  refine ⟨lt_of_le_of_lt hrun.le_start hrun.nonempty, ?_⟩
  by_contra hlong
  have hpos : 0 < run'.stop := Nat.zero_lt_of_lt hrun.nonempty
  have hlast := hrun.set (run'.stop - 1) (Nat.le_sub_one_of_lt hrun.nonempty)
    (Nat.sub_one_lt_of_lt hpos)
  rw [get_of_length_le (Nat.le_sub_one_of_lt (Nat.not_le.mp hlong))] at hlast
  cases hlast

/-- The runs from a place inside the mask or at its end, with each flag looked up by itself. -/
def runsCheckedFrom (flags : List Bool) (i : Nat) (hi : i ≤ flags.length) :
    Except Breach (List Run) :=
  match h : nextChecked flags i with
  | .error breach => .error breach
  | .ok none => .ok []
  | .ok (some run) => do
    let more ← runsCheckedFrom flags run.stop (stop_of_nextChecked hi h).2
    return run :: more
termination_by flags.length - i
decreasing_by
  have hstop := stop_of_nextChecked hi h
  omega

/-- The runs of a mask, with each flag looked up by itself. -/
def runsChecked (m : Mask) : Except Breach (List Run) :=
  runsCheckedFrom m.flags 0 (Nat.zero_le _)

/-- No flag that is looked up is missing. -/
theorem runsCheckedFrom_eq {flags : List Bool} {i : Nat} (hi : i ≤ flags.length) :
    runsCheckedFrom flags i hi = .ok (Cursor.runs ⟨i, flags.drop i⟩) := by
  have hstart : Cursor.At ⟨i, flags.drop i⟩ ⟨flags⟩ := rfl
  fun_induction runsCheckedFrom flags i hi with
  | case1 i hi breach h =>
    rw [nextChecked_eq hi] at h
    cases h
  | case2 i hi h =>
    rw [nextChecked_eq hi] at h
    have hnext := Option.map_eq_none_iff.mp (Except.ok.inj h)
    rw [Cursor.runs, hnext]
  | case3 i hi run h ih =>
    rw [nextChecked_eq hi] at h
    obtain ⟨⟨run', behind⟩, hnext, rfl⟩ := Option.map_eq_some_iff.mp (Except.ok.inj h)
    obtain ⟨-, hat, hposition⟩ := Cursor.firstFrom_of_next? hstart hnext
    have hbehind : behind = ⟨run'.stop, flags.drop run'.stop⟩ := by
      rw [← hposition, hat]
    rw [ih rfl, ok_bind, Cursor.runs.eq_def ⟨i, flags.drop i⟩, hnext, hbehind]
    rfl

/-- **Looking for runs.**  All places that are looked at are inside the mask. -/
theorem runsChecked_eq (m : Mask) : m.runsChecked = .ok m.runs :=
  runsCheckedFrom_eq (Nat.zero_le _)

end Mask

/-! ### Overlays -/

/-- The upper-case digits. -/
def Hex.upperDigits : List Char :=
  ['0', '1', '2', '3', '4', '5', '6', '7', '8', '9', 'A', 'B', 'C', 'D', 'E', 'F']

/-- A byte as two digits that are looked up. -/
def Hex.ofByteChecked (b : UInt8) : Except Breach (List Char) := do
  let high ← Checked.index upperDigits (b.toNat / 16)
  let low ← Checked.index upperDigits (b.toNat % 16)
  return [high, low]

/-- There is a digit for each value below sixteen. -/
theorem Hex.getElem?_upperDigits {n : Nat} (h : n < 16) :
    upperDigits[n]? = some (upperDigit n) := by
  have hall : ∀ n < 16, upperDigits[n]? = some (upperDigit n) := by decide
  exact hall n h

/-- Each byte has its two digits. -/
theorem Hex.ofByteChecked_eq (b : UInt8) : ofByteChecked b = .ok (ofByte b) := by
  have hhigh : b.toNat / 16 < 16 := Nat.div_lt_of_lt_mul b.toNat_lt
  have hlow : b.toNat % 16 < 16 := Nat.mod_lt _ (by decide)
  rw [ofByteChecked, Checked.index_of_getElem? (getElem?_upperDigits hhigh), ok_bind,
    Checked.index_of_getElem? (getElem?_upperDigits hlow), ok_bind]
  rfl

namespace Overlay

open Base40 (bytesPerUnit)

/-- One more unit behind a text, with the two bytes of a whole unit looked up. -/
def unitChecked (α : Base40.Alphabet) (shown : String × List Base40.Error) (unit : List UInt8) :
    Except Breach (String × List Base40.Error) :=
  if unit.length % bytesPerUnit ≠ 0 then .ok (unitOnto α shown unit)
  else do
    let lo ← Checked.index unit 0
    let hi ← Checked.index unit 1
    return unitOnto α shown [lo, hi]

/-- Packed text behind a text. -/
def packedChecked (α : Base40.Alphabet) (text : String) (bytes : List UInt8) :
    Except Breach (String × List Base40.Error) :=
  (units bytes).foldlM (unitChecked α) (text, [])

/-- A text with the reading of a window behind it.  Text at an odd offset is what is between the
first byte and the last one. -/
def renderChecked : Overlay → String → List UInt8 → Except Breach (String × List Base40.Error)
  | base40 α, text, window => packedChecked α text window
  | base40Odd α, text, window =>
    if window.length < 2 then .ok (text, [])
    else do
      let between ← Checked.slice window 1 (window.length - 1)
      packedChecked α text between
  | o, text, window => .ok (o.renderOnto text window)

/-- Units have two bytes or one. -/
theorem exists_of_mem_units {bytes unit : List UInt8} (h : unit ∈ units bytes) :
    (∃ lo hi, unit = [lo, hi]) ∨ ∃ b, unit = [b] := by
  fun_induction units bytes with
  | case1 lo hi rest ih =>
    rcases List.mem_cons.mp h with rfl | hmore
    · exact Or.inl ⟨lo, hi, rfl⟩
    · exact ih hmore
  | case2 b => exact Or.inr ⟨b, List.mem_singleton.mp h⟩
  | case3 => cases h

/-- Both bytes of a whole unit are there. -/
theorem packedChecked_eq (α : Base40.Alphabet) (text : String) (bytes : List UInt8) :
    packedChecked α text bytes = .ok (packedOnto α text bytes) := by
  refine foldlM_eq_ok_foldl (fun shown unit hunit => ?_) (text, [])
  obtain ⟨lo, hi, rfl⟩ | ⟨b, rfl⟩ := exists_of_mem_units hunit
  · have heven : [lo, hi].length % bytesPerUnit = 0 := Base40.length_cons_cons_mod lo hi []
    exact if_neg (not_not.mpr heven)
  · have hodd : [b].length % bytesPerUnit ≠ 0 := Nat.one_ne_zero
    exact if_pos hodd

/-- **Overlays.**  Whatever the window is, an overlay looks at places inside it only. -/
theorem renderChecked_eq (o : Overlay) (text : String) (window : List UInt8) :
    o.renderChecked text window = .ok (o.renderOnto text window) := by
  cases o with
  | screenCode => rfl
  | base40 α => exact packedChecked_eq α text window
  | base40Odd α =>
    rw [renderChecked, renderOnto]
    split
    · rfl
    · next hlong =>
      have hinner : (window.take (window.length - 1)).drop 1 = inner window := by
        rw [inner, List.dropLast_eq_take, List.length_tail, List.drop_take, List.drop_one]
      rw [Checked.slice_of_le (by omega) (Nat.sub_le _ 1), ok_bind, hinner, packedChecked_eq]
  | ascii => rfl
  | custom label read => rfl

end Overlay

/-! ### Lines -/

namespace LineStyle

open Checked

/-- Whether the position before position `i` is set.  There is none before the first one. -/
def flagBeforeChecked (flags : List Bool) (i : Nat) : Except Breach Bool :=
  if 0 < i then index flags (i - 1) else .ok false

/-- The two characters of a cell. -/
def cellTextChecked (blank : List Char) : Option UInt8 → Except Breach (List Char)
  | some b => Hex.ofByteChecked b
  | none => .ok blank

/-- What a line shows of a position: the brackets and spaces before it, and its cell. -/
def columnChecked (blank : List Char) (cell : Nat → Except Breach (Option UInt8))
    (flags : List Bool) (i : Nat) : Except Breach (List Char) := do
  let before ← flagBeforeChecked flags i
  let here ← index flags i
  let shown ← cell i
  let text ← cellTextChecked blank shown
  return gap i before here ++ text

/-- A text with a line behind it, without its line break, under as many flags as there are
positions.  An offset that has no column is not a precondition: where there is none, that is the
result. -/
def rowChecked (style : LineStyle) (text : String) (offset : Nat) (blank : List Char)
    (cell : Nat → Except Breach (Option UInt8)) (flags : List Bool) (bytes : List UInt8) :
    Except Breach (Except Hex.Overwide String) :=
  if flags.length ≠ style.capacity then .error (.flags flags.length style.capacity)
  else
    match Hex.paddedOnto text style.offsetWidth offset with
    | .error e => .ok (.error e)
    | .ok begun => do
      let shown ← (List.range style.capacity).mapM (columnChecked blank cell flags)
      let last := if flags.getLast?.getD false then ')' else ' '
      let text ← style.overlays.foldlM
        (fun text o => do
          let shown ← o.renderChecked (text ++ "  ") bytes
          return shown.1)
        (begun ++ String.ofList (':' :: (shown.flatten ++ [last])))
      return .ok text

/-- A text with the line of a window behind it, which is no longer than the line. -/
def lineChecked (style : LineStyle) (text : String) (offset : Nat) (window : List UInt8)
    (flags : List Bool) : Except Breach (Except Hex.Overwide String) :=
  if style.capacity < window.length then .error (.window window.length style.capacity)
  else style.rowChecked text offset missingByte (fun i => .ok window[i]?) flags window

/-- The columns, position by position, and the last one. -/
theorem columns_eq_flatten (blank : List Char) (k : Nat) (before : Bool) (flags : List Bool)
    (cells : List (Option UInt8)) :
    columns blank k before flags cells =
      ((List.range flags.length).map fun i =>
        gap (k + i) ((before :: flags).getD i false) (flags.getD i false) ++
          cellText blank cells[i]?.join).flatten ++
        [if (before :: flags).getD flags.length false then ')' else ' '] := by
  induction flags generalizing k before cells with
  | nil => rfl
  | cons here flags ih =>
    have hcell : ∀ i, cells.tail[i]? = cells[i + 1]? := fun i => by
      rw [← List.drop_one, List.getElem?_drop, Nat.add_comm]
    rw [columns, ih, List.length_cons, List.range_succ_eq_map, List.map_cons, List.map_map,
      List.flatten_cons, List.head?_eq_getElem?]
    simp only [Function.comp_def, hcell, List.getD_cons_succ, List.getD_cons_zero, Nat.add_zero,
      Nat.succ_eq_add_one, Nat.add_assoc, Nat.add_comm 1, List.append_assoc]

/-- A cell has its two characters. -/
theorem cellTextChecked_eq (blank : List Char) (shown : Option UInt8) :
    cellTextChecked blank shown = .ok (cellText blank shown) := by
  cases shown with
  | none => rfl
  | some b => exact Hex.ofByteChecked_eq b

/-- The flag of a position inside the line, and the one before it, are there. -/
theorem columnChecked_eq {blank : List Char} {cell : Nat → Except Breach (Option UInt8)}
    {flags : List Bool} {i : Nat} {shown : Option UInt8} (hi : i < flags.length)
    (hcell : cell i = .ok shown) :
    columnChecked blank cell flags i =
      .ok (gap i (flagBefore flags i) (flags.getD i false) ++ cellText blank shown) := by
  have hflag : ∀ j < flags.length, index flags j = .ok (flags.getD j false) := fun j hj =>
    index_of_getElem? (by
      rw [List.getD_eq_getElem?_getD, List.getElem?_eq_getElem hj, Option.getD_some])
  have hbefore : flagBeforeChecked flags i = .ok (flagBefore flags i) := by
    cases i with
    | zero => rfl
    | succ j => exact (if_pos j.succ_pos).trans (hflag j (Nat.lt_of_succ_lt hi))
  rw [columnChecked, hbefore, ok_bind, hflag i hi, ok_bind, hcell, ok_bind, cellTextChecked_eq,
    ok_bind]
  rfl

/-- **Rows.**  A row under as many flags as there are positions. -/
theorem rowChecked_eq {style : LineStyle} {cell : Nat → Except Breach (Option UInt8)}
    {cells : List (Option UInt8)} {flags : List Bool} (hflags : flags.length = style.capacity)
    (hcell : ∀ i < style.capacity, cell i = .ok cells[i]?.join) (text : String) (offset : Nat)
    (blank : List Char) (bytes : List UInt8) :
    style.rowChecked text offset blank cell flags bytes =
      .ok (style.rowOnto text offset blank cells flags bytes) := by
  have hcolumns : (List.range style.capacity).mapM (columnChecked blank cell flags) =
      .ok ((List.range style.capacity).map fun i =>
        gap i (flagBefore flags i) (flags.getD i false) ++ cellText blank cells[i]?.join) :=
    mapM_eq_ok_map fun i hi => by
      have hlt : i < style.capacity := List.mem_range.mp hi
      exact columnChecked_eq (hflags.symm ▸ hlt) (hcell i hlt)
  have hlast : flags.getLast?.getD false = (false :: flags).getD flags.length false := by
    cases flags with
    | nil => rfl
    | cons flag flags => rw [List.getLast?_eq_getElem?]; rfl
  have hoverlays : ∀ text : String, style.overlays.foldlM
      (fun text o => do
        let shown ← o.renderChecked (text ++ "  ") bytes
        return shown.1) text = (.ok (style.overlaysOnto text bytes) : Except Breach String) :=
    fun text => foldlM_eq_ok_foldl
      (fun text o _ => by rw [Overlay.renderChecked_eq]; rfl) text
  rw [rowChecked, if_neg (not_not.mpr hflags), rowOnto]
  cases Hex.paddedOnto text style.offsetWidth offset with
  | error e => rfl
  | ok begun =>
    dsimp only
    rw [hcolumns, ok_bind, ok_bind, hlast, hoverlays, ok_bind, columns_eq_flatten, hflags]
    simp only [Nat.zero_add]
    rfl

/-- **Lines.**  The line of a window that is no longer, under as many flags as positions. -/
theorem lineChecked_eq {style : LineStyle} {window : List UInt8} {flags : List Bool}
    (hwindow : window.length ≤ style.capacity) (hflags : flags.length = style.capacity)
    (text : String) (offset : Nat) :
    style.lineChecked text offset window flags = .ok (style.lineOnto text offset window flags) := by
  rw [lineChecked, if_neg (Nat.not_lt.mpr hwindow), lineOnto]
  exact rowChecked_eq hflags (fun i _ => by rw [join_getElem?_map_some]) text offset missingByte
    window

end LineStyle
end HexDiff
