import HexDiff.Proofs.Digits
import HexDiff.Proofs.Overlays.Rendering

/-!
# The columns of a line, and what a line tells

The columns of a line are as wide as its positions require: what stands before the digits of a
position has a width that depends on the position only, since a bracket takes the place of a space.
`LineStyle.columnsWidth` is the width of the first positions together.

So the digits of a position stand at the same place in every line, and since no byte looks like the
mark of a byte that is not there, they can be read back.  A line tells its offset and its window,
and where it ends, whatever follows it (`LineStyle.line_append_inj`).
-/

namespace HexDiff
namespace LineStyle

/-! ### Widths -/

/-- The width of the columns of the first `i` positions: three characters for each, and one more at
each eighth and at each sixteenth. -/
def columnsWidth (i : Nat) : Nat :=
  3 * i + (i + 7) / 8 + (i + 15) / 16

/-- What stands before the digits of a position is as wide whatever differs. -/
theorem length_gap (i : Nat) (before here : Bool) :
    (gap i before here).length =
      1 + (if i % 8 = 0 then 1 else 0) + (if i % 16 = 0 then 1 else 0) := by
  have heighth : (if i % 8 = 0 then [' '] else []).length = if i % 8 = 0 then 1 else 0 :=
    apply_ite List.length _ _ _
  have hsixteenth : (if i % 16 = 0 then [' '] else []).length = if i % 16 = 0 then 1 else 0 :=
    apply_ite List.length _ _ _
  have hbracket : (if before && !here then [')'] else []).length +
      (if here && !before then ['('] else if before && !here then [] else [' ']).length = 1 := by
    cases before <;> cases here <;> rfl
  rw [gap, List.length_append, List.length_append, List.length_append, heighth, hsixteenth]
  omega

/-- The mark of a byte that is not there takes two characters. -/
@[simp] theorem length_missingByte : missingByte.length = 2 := rfl

/-- The digits of a byte and the mark of a byte that is not there are equally wide. -/
theorem length_cellText {blank : List Char} (h : blank.length = 2) (cell : Option UInt8) :
    (cellText blank cell).length = 2 := by
  cases cell with
  | none => exact h
  | some b => exact Hex.length_ofByte b

/-- One more position. -/
theorem columnsWidth_succ (i : Nat) (before here : Bool) :
    columnsWidth (i + 1) = columnsWidth i + (gap i before here).length + 2 := by
  rw [length_gap, columnsWidth, columnsWidth]
  split <;> split <;> omega

/-- The columns from position `i` on, and the last column. -/
theorem length_columns {blank : List Char} (h : blank.length = 2) (i : Nat) (before : Bool)
    (flags : List Bool) (cells : List (Option UInt8)) :
    columnsWidth i + (columns blank i before flags cells).length =
      columnsWidth (i + flags.length) + 1 := by
  induction flags generalizing i before cells with
  | nil => rfl
  | cons here flags ih =>
    have hrest := ih (i + 1) here cells.tail
    have hstep := columnsWidth_succ i before here
    rw [columns, List.length_append, List.length_append, length_cellText h, List.length_cons,
      Nat.add_comm flags.length 1, ← Nat.add_assoc i 1 flags.length]
    omega

/-! ### Reading back -/

/-- The text of a cell tells the byte, or that there is none. -/
theorem cellText_injective {blank : List Char} (h : ∀ b, Hex.ofByte b ≠ blank) :
    Function.Injective (cellText blank) := by
  intro cell cell' heq
  cases cell with
  | none =>
    cases cell' with
    | none => rfl
    | some b => exact absurd heq.symm (h b)
  | some b =>
    cases cell' with
    | none => exact absurd heq (h b)
    | some b' => exact congrArg some (Hex.ofByte_injective heq)

/-- Columns of equally many positions tell the cells of these positions, whatever the flags. -/
theorem columns_inj {blank : List Char} (hlength : blank.length = 2)
    (hblank : ∀ b, Hex.ofByte b ≠ blank) {flags flags' : List Bool}
    (hflags : flags.length = flags'.length) {i : Nat} {before before' : Bool}
    {cells cells' : List (Option UInt8)}
    (h : columns blank i before flags cells = columns blank i before' flags' cells') :
    ∀ j < flags.length, cells[j]?.join = cells'[j]?.join := by
  induction flags generalizing flags' i before before' cells cells' with
  | nil =>
    intro j hj
    cases hj
  | cons here flags ih =>
    cases flags' with
    | nil => cases hflags
    | cons here' flags' =>
      -- brackets stand in the place of spaces, so both texts split at the same places
      rw [columns, columns, List.append_assoc, List.append_assoc] at h
      obtain ⟨-, h⟩ := List.append_inj h (by rw [length_gap, length_gap])
      obtain ⟨hcell, hrest⟩ := List.append_inj h
        (by rw [length_cellText hlength, length_cellText hlength])
      intro j hj
      cases j with
      | zero =>
        rw [← List.head?_eq_getElem?, ← List.head?_eq_getElem?]
        exact cellText_injective hblank hcell
      | succ j =>
        have htail := ih (Nat.succ.inj hflags) hrest j (Nat.lt_of_succ_lt_succ hj)
        rwa [List.getElem?_tail, List.getElem?_tail] at htail

/-- No byte is shown like a byte that is not there. -/
theorem ofByte_ne_missingByte (b : UInt8) : Hex.ofByte b ≠ missingByte :=
  Hex.ofByte_ne (c := '-') (by decide) (by decide) b

/-- The cells of a window are its bytes. -/
theorem join_getElem?_map_some (window : List UInt8) (i : Nat) :
    (window.map some)[i]?.join = window[i]? := by
  rw [List.getElem?_map]
  cases window[i]? <;> rfl

/-- The columns of two windows that fit tell the windows. -/
theorem window_of_columns_eq {flags flags' : List Bool} (hflags : flags.length = flags'.length)
    {window window' : List UInt8} (hfit : window.length ≤ flags.length)
    (hfit' : window'.length ≤ flags'.length)
    (h : columns missingByte 0 false flags (window.map some) =
      columns missingByte 0 false flags' (window'.map some)) :
    window = window' := by
  refine List.ext_getElem? fun j => ?_
  rcases Nat.lt_or_ge j flags.length with hj | hj
  · have hcell := columns_inj length_missingByte ofByte_ne_missingByte hflags h j hj
    rwa [join_getElem?_map_some, join_getElem?_map_some] at hcell
  · rw [List.getElem?_eq_none (by omega), List.getElem?_eq_none (by omega)]

/-- A line begins with its offset, and the offset ends with a colon. -/
theorem exists_line_eq (style : LineStyle) (offset : Nat) (window : List UInt8)
    (flags : List Bool) :
    ∃ tail, style.line offset window flags =
      Hex.padded style.offsetWidth offset ++ ':' :: tail :=
  ⟨columns missingByte 0 false flags (window.map some) ++ style.overlayText window,
    by rw [line, row, List.append_assoc, List.cons_append]⟩

/-- A line, whatever follows it, tells its offset and its window, and where it ends. -/
theorem line_append_inj {style : LineStyle} {offset offset' : Nat} {window window' : List UInt8}
    {flags flags' : List Bool} (hflags : flags.length = flags'.length)
    (hfit : window.length ≤ flags.length) (hfit' : window'.length ≤ flags'.length)
    {rest rest' : List Char}
    (h : style.line offset window flags ++ rest = style.line offset' window' flags' ++ rest') :
    offset = offset' ∧ window = window' ∧ rest = rest' := by
  simp only [line, row, List.append_assoc, List.cons_append] at h
  have hoffset : offset = offset' := Hex.padded_append_inj (c := ':') (by decide) h
  subst hoffset
  have h := (List.cons.inj (List.append_cancel_left h)).2
  obtain ⟨hcolumns, htail⟩ := List.append_inj h (by
    have hwidth := length_columns length_missingByte 0 false flags (window.map some)
    have hwidth' := length_columns length_missingByte 0 false flags' (window'.map some)
    rw [hflags] at hwidth
    omega)
  have hwindow := window_of_columns_eq hflags hfit hfit' hcolumns
  subst hwindow
  exact ⟨rfl, rfl, List.append_cancel_left htail⟩

end LineStyle
end HexDiff
