import HexDiff.Proofs.Columns
import HexDiff.Proofs.Runs
import Mathlib.Tactic.Push

/-!
# Where everything stands in a line

A line is written from left to right, and what is written at a position depends on the position
before it.  `LineStyle.LaidOut` tells the same line by places: which column holds which digit of the
offset, where the two characters of each position stand, in which columns there is a bracket, and
where the overlays begin.  Every other column is a space, so a line is known from its places
(`LineStyle.LaidOut.unique`).

Two facts lead from the one description to the other.  The columns from some position on are again
columns (`LineStyle.drop_columns`), and what stands before the digits of a position is spaces with
at most one bracket at either end (`LineStyle.getElem?_gap`).  The main statement is
`LineStyle.laidOut_row`.
-/

namespace HexDiff
namespace LineStyle

/-! ### Places -/

/-- The width of what stands before the columns: the digits of the offset and a colon. -/
def headerWidth (style : LineStyle) (offset : Nat) : Nat :=
  max style.offsetWidth (Nat.log 16 offset + 1) + 1

/-- Where the digits of position `i` begin behind the header.  Three characters go with each
position before it, and one space more with each group of eight and of sixteen that has begun. -/
def cellColumn (i : Nat) : Nat :=
  3 + 3 * i + i / 8 + i / 16

/-- A text in which everything stands in its place.  The positions show the bytes of `cell`, or
`blank` where there is none; a bracket opens before the positions that `opens` is true of and closes
behind those that `closes` is true of; the overlays are those of `bytes`. -/
structure LaidOut (style : LineStyle) (offset : Nat) (blank : List Char)
    (cell : Nat → Option UInt8) (opens closes : Nat → Prop) (bytes : List UInt8)
    (text : List Char) : Prop where
  /-- The digits of the offset, the last one before the colon. -/
  digits : ∀ k, k + 1 < style.headerWidth offset →
    text[k]? = some (Hex.upperDigit (offset / 16 ^ (style.headerWidth offset - 2 - k) % 16))
  colon : text[style.headerWidth offset - 1]? = some ':'
  /-- The two characters of a position. -/
  cells : ∀ i < style.capacity,
    (text.drop (style.headerWidth offset + cellColumn i)).take 2 = (cell i).elim blank Hex.ofByte
  /-- The column just before these two. -/
  opening : ∀ i < style.capacity,
    text[style.headerWidth offset + cellColumn i - 1]? = some '(' ↔ opens i
  /-- The column just behind them. -/
  closing : ∀ i < style.capacity,
    text[style.headerWidth offset + cellColumn i + 2]? = some ')' ↔ closes i
  /-- All other columns before the overlays. -/
  spaces : ∀ k, style.headerWidth offset ≤ k →
    k < style.headerWidth offset + columnsWidth style.capacity + 1 →
    (∀ i < style.capacity, k ≠ style.headerWidth offset + cellColumn i ∧
      k ≠ style.headerWidth offset + cellColumn i + 1) →
    (∀ i < style.capacity, opens i → k ≠ style.headerWidth offset + cellColumn i - 1) →
    (∀ i < style.capacity, closes i → k ≠ style.headerWidth offset + cellColumn i + 2) →
    text[k]? = some ' '
  overlays : text.drop (style.headerWidth offset + columnsWidth style.capacity + 1) =
    style.overlays.flatMap fun o => ' ' :: ' ' :: o.render bytes

namespace LaidOut

variable {style : LineStyle} {offset : Nat} {blank : List Char} {cell cell' : Nat → Option UInt8}
  {opens opens' closes closes' : Nat → Prop} {bytes : List UInt8} {text text' : List Char}

/-- What is asked of positions is asked of those of the line only. -/
theorem congr (h : style.LaidOut offset blank cell opens closes bytes text)
    (hcell : ∀ i < style.capacity, cell i = cell' i)
    (hopens : ∀ i < style.capacity, opens i ↔ opens' i)
    (hcloses : ∀ i < style.capacity, closes i ↔ closes' i) :
    style.LaidOut offset blank cell' opens' closes' bytes text where
  digits := h.digits
  colon := h.colon
  cells i hi := by rw [h.cells i hi, hcell i hi]
  opening i hi := (h.opening i hi).trans (hopens i hi)
  closing i hi := (h.closing i hi).trans (hcloses i hi)
  spaces k hlow hhigh hcells hopening hclosing :=
    h.spaces k hlow hhigh hcells (fun i hi hi' => hopening i hi ((hopens i hi).mp hi'))
      (fun i hi hi' => hclosing i hi ((hcloses i hi).mp hi'))
  overlays := h.overlays

/-- Of two texts with the same places each is the other. -/
theorem unique (h : style.LaidOut offset blank cell opens closes bytes text)
    (h' : style.LaidOut offset blank cell opens closes bytes text') : text = text' := by
  refine List.ext_getElem? fun k => ?_
  have hwidth : 1 ≤ style.headerWidth offset := Nat.le_add_left _ _
  rcases Nat.lt_or_ge k (style.headerWidth offset) with hheader | hheader
  · rcases Nat.lt_or_eq_of_le (Nat.succ_le_of_lt hheader) with hdigit | hcolon
    · rw [h.digits k hdigit, h'.digits k hdigit]
    · have hk : k = style.headerWidth offset - 1 := by omega
      rw [hk, h.colon, h'.colon]
  rcases Nat.lt_or_ge k (style.headerWidth offset + columnsWidth style.capacity + 1) with
    hcolumns | hoverlays
  · by_cases hcell : ∀ i < style.capacity, k ≠ style.headerWidth offset + cellColumn i ∧
        k ≠ style.headerWidth offset + cellColumn i + 1
    · by_cases hopen : ∀ i < style.capacity, opens i →
          k ≠ style.headerWidth offset + cellColumn i - 1
      · by_cases hclose : ∀ i < style.capacity, closes i →
            k ≠ style.headerWidth offset + cellColumn i + 2
        · rw [h.spaces k hheader hcolumns hcell hopen hclose,
            h'.spaces k hheader hcolumns hcell hopen hclose]
        · push Not at hclose
          obtain ⟨i, hi, hcloses, rfl⟩ := hclose
          rw [(h.closing i hi).mpr hcloses, (h'.closing i hi).mpr hcloses]
      · push Not at hopen
        obtain ⟨i, hi, hopens, rfl⟩ := hopen
        rw [(h.opening i hi).mpr hopens, (h'.opening i hi).mpr hopens]
    · obtain ⟨i, hi, r, hr, rfl⟩ : ∃ i < style.capacity, ∃ r < 2,
          k = style.headerWidth offset + cellColumn i + r := by
        push Not at hcell
        obtain ⟨i, hi, hcell⟩ := hcell
        by_cases hfirst : k = style.headerWidth offset + cellColumn i
        · exact ⟨i, hi, 0, by omega, hfirst⟩
        · exact ⟨i, hi, 1, by omega, hcell hfirst⟩
      have hboth := (h.cells i hi).trans (h'.cells i hi).symm
      rw [← List.getElem?_drop, ← List.getElem?_drop, ← List.getElem?_take_of_lt hr, hboth,
        List.getElem?_take_of_lt hr]
  · obtain ⟨r, rfl⟩ := Nat.exists_eq_add_of_le hoverlays
    rw [← List.getElem?_drop, ← List.getElem?_drop, h.overlays, h'.overlays]

end LaidOut

/-! ### What stands before the digits of a position -/

/-- The digits of a position stand behind what stands before them. -/
theorem cellColumn_eq (i : Nat) (before here : Bool) :
    cellColumn i = columnsWidth i + (gap i before here).length := by
  rw [length_gap, cellColumn, columnsWidth]
  split <;> split <;> omega

/-- The columns of one more position end behind its digits. -/
theorem columnsWidth_succ_eq (i : Nat) : columnsWidth (i + 1) = cellColumn i + 2 := by
  rw [columnsWidth_succ i false false, ← cellColumn_eq]

/-- The digits of a position end before the last column. -/
theorem cellColumn_add_two_le {i n : Nat} (hi : i < n) : cellColumn i + 2 ≤ columnsWidth n := by
  rw [← columnsWidth_succ_eq, columnsWidth, columnsWidth]
  omega

/-- The groups of eight and of sixteen begin with spaces. -/
theorem exists_groupSpaces_eq (i : Nat) :
    ∃ n, (if i % 8 = 0 then [' '] else []) ++ (if i % 16 = 0 then [' '] else []) =
      List.replicate n ' ' := by
  split
  · split
    · exact ⟨2, rfl⟩
    · exact ⟨1, rfl⟩
  · split
    · exact ⟨1, rfl⟩
    · exact ⟨0, rfl⟩

/-- Before a position that is as the one before it there are spaces only. -/
theorem exists_gap_same_eq (i : Nat) (flag : Bool) :
    ∃ n, gap i flag flag = List.replicate n ' ' := by
  obtain ⟨n, hn⟩ := exists_groupSpaces_eq i
  refine ⟨n + 1, ?_⟩
  rw [List.replicate_succ', ← hn]
  simp [gap]

/-- A bracket opens behind the spaces. -/
theorem exists_gap_opening_eq (i : Nat) :
    ∃ n, gap i false true = List.replicate n ' ' ++ ['('] := by
  obtain ⟨n, hn⟩ := exists_groupSpaces_eq i
  refine ⟨n, ?_⟩
  rw [← hn]
  simp [gap]

/-- A bracket closes before the spaces. -/
theorem exists_gap_closing_eq (i : Nat) :
    ∃ n, gap i true false = ')' :: List.replicate n ' ' := by
  obtain ⟨n, hn⟩ := exists_groupSpaces_eq i
  refine ⟨n, ?_⟩
  rw [← hn]
  simp [gap]

/-- What stands before the digits is spaces, but for a bracket that closes in the first column or
one that opens in the last. -/
theorem getElem?_gap (i : Nat) (before here : Bool) {r : Nat}
    (h : r < (gap i before here).length) :
    (gap i before here)[r]? = some (
      if before && !here && r == 0 then ')'
      else if here && !before && r + 1 == (gap i before here).length then '('
      else ' ') := by
  by_cases hsame : before = here
  · subst hsame
    obtain ⟨n, hn⟩ := exists_gap_same_eq i before
    rw [hn, List.length_replicate] at h
    rw [hn, List.getElem?_replicate_of_lt h, Bool.and_not_self]
    rfl
  · obtain rfl : here = !before := Bool.eq_not_of_ne (Ne.symm hsame)
    cases before with
    | false =>
      obtain ⟨n, hn⟩ := exists_gap_opening_eq i
      rw [Bool.not_false, hn, List.length_append, List.length_replicate,
        List.length_singleton] at h ⊢
      rcases Nat.lt_or_eq_of_le (Nat.le_of_lt_succ h) with hlt | rfl
      · have hne : r ≠ n := Nat.ne_of_lt hlt
        rw [List.getElem?_append_left (by rwa [List.length_replicate]),
          List.getElem?_replicate_of_lt hlt]
        simp [hne]
      · rw [List.getElem?_append_right (by rw [List.length_replicate]), List.length_replicate,
          Nat.sub_self]
        simp
    | true =>
      obtain ⟨n, hn⟩ := exists_gap_closing_eq i
      rw [Bool.not_true, hn] at h ⊢
      cases r with
      | zero => rfl
      | succ r =>
        rw [List.length_cons, List.length_replicate] at h
        rw [List.getElem?_cons_succ, List.getElem?_replicate_of_lt (Nat.lt_of_succ_lt_succ h)]
        rfl

/-- The two characters of a cell, by what the cell holds. -/
theorem cellText_eq_elim (blank : List Char) (cell : Option UInt8) :
    cellText blank cell = cell.elim blank Hex.ofByte := by
  cases cell with
  | none => rfl
  | some b => rfl

/-! ### The columns from a position on -/

/-- Every column before the last one belongs to a position. -/
theorem exists_place {n k : Nat} (h : k < columnsWidth n) :
    ∃ i < n, ∃ r, k = columnsWidth i + r ∧ k < columnsWidth (i + 1) := by
  induction n with
  | zero => exact absurd h (Nat.not_lt_zero k)
  | succ n ih =>
    rcases Nat.lt_or_ge k (columnsWidth n) with hlt | hge
    · obtain ⟨i, hi, r, hr⟩ := ih hlt
      exact ⟨i, Nat.lt_succ_of_lt hi, r, hr⟩
    · obtain ⟨r, rfl⟩ := Nat.exists_eq_add_of_le hge
      exact ⟨n, Nat.lt_succ_self n, r, rfl, h⟩

/-- The columns from a position on are the columns of the positions from there on. -/
theorem drop_columns {blank : List Char} (hblank : blank.length = 2) (i : Nat) (before : Bool)
    (flags : List Bool) (cells : List (Option UInt8)) {j : Nat} (hj : j ≤ flags.length) :
    (columns blank i before flags cells).drop (columnsWidth (i + j) - columnsWidth i) =
      columns blank (i + j) ((before :: flags).getD j false) (flags.drop j) (cells.drop j) := by
  induction flags generalizing i before cells j with
  | nil =>
    obtain rfl : j = 0 := Nat.le_zero.mp hj
    rw [Nat.add_zero, Nat.sub_self]
    rfl
  | cons here flags ih =>
    cases j with
    | zero =>
      rw [Nat.add_zero, Nat.sub_self]
      rfl
    | succ j =>
      have hfront : (gap i before here ++ cellText blank cells.head?.join).length =
          columnsWidth (i + 1) - columnsWidth i := by
        rw [List.length_append, length_cellText hblank, columnsWidth_succ i before here]
        omega
      have hsplit : columnsWidth (i + (j + 1)) - columnsWidth i =
          (gap i before here ++ cellText blank cells.head?.join).length +
            (columnsWidth (i + 1 + j) - columnsWidth (i + 1)) := by
        have hmono : columnsWidth i ≤ columnsWidth (i + 1) ∧
            columnsWidth (i + 1) ≤ columnsWidth (i + 1 + j) := by
          unfold columnsWidth
          omega
        rw [hfront, Nat.add_right_comm i 1 j, Nat.add_assoc i j 1]
        rw [Nat.add_right_comm i 1 j, Nat.add_assoc i j 1] at hmono
        omega
      rw [columns, hsplit, List.drop_length_add_append, ih _ _ _ (Nat.le_of_succ_le_succ hj),
        List.drop_succ_cons, List.getD_cons_succ, List.drop_tail, Nat.add_right_comm i 1 j,
        Nat.add_assoc i j 1]

/-- Whether the position before position `j` of some flags is set. -/
def flagBefore (flags : List Bool) (j : Nat) : Bool :=
  (false :: flags).getD j false

/-- Behind a position stands what it is itself. -/
theorem flagBefore_succ (flags : List Bool) (j : Nat) :
    flagBefore flags (j + 1) = Mask.get ⟨flags⟩ j :=
  List.getD_cons_succ

/-- There is no position before the first one. -/
theorem flagBefore_eq_false_iff (flags : List Bool) (j : Nat) :
    flagBefore flags j = false ↔ j = 0 ∨ Mask.get ⟨flags⟩ (j - 1) = false := by
  cases j with
  | zero => exact iff_of_true rfl (Or.inl rfl)
  | succ j =>
    rw [flagBefore_succ, Nat.add_sub_cancel]
    exact (or_iff_right (Nat.succ_ne_zero j)).symm

section Columns

variable {blank : List Char} (hblank : blank.length = 2) (flags : List Bool)
  (cells : List (Option UInt8)) {j : Nat}
include hblank

/-- What a line shows of a position and of those behind it. -/
theorem drop_columnsWidth (hj : j < flags.length) :
    (columns blank 0 false flags cells).drop (columnsWidth j) =
      gap j (flagBefore flags j) (Mask.get ⟨flags⟩ j) ++
        (cellText blank cells[j]?.join ++
          columns blank (j + 1) (Mask.get ⟨flags⟩ j) (flags.drop (j + 1))
            (cells.drop j).tail) := by
  have hget : Mask.get ⟨flags⟩ j = flags[j] := by
    rw [Mask.get, List.getD_eq_getElem?_getD, List.getElem?_eq_getElem hj]
    rfl
  have hdrop := drop_columns hblank 0 false flags cells hj.le
  rw [Nat.zero_add, List.drop_eq_getElem_cons hj, columns, List.head?_drop, ← hget,
    List.append_assoc] at hdrop
  exact hdrop

/-- The last column. -/
theorem drop_columnsWidth_length :
    (columns blank 0 false flags cells).drop (columnsWidth flags.length) =
      [if flagBefore flags flags.length then ')' else ' '] := by
  have hdrop := drop_columns hblank 0 false flags cells le_rfl
  rw [Nat.zero_add, List.drop_length, columns] at hdrop
  exact hdrop

/-- The two characters of a position. -/
theorem cell_columns (hj : j < flags.length) :
    ((columns blank 0 false flags cells).drop (cellColumn j)).take 2 =
      cellText blank cells[j]?.join := by
  rw [cellColumn_eq j (flagBefore flags j) (Mask.get ⟨flags⟩ j), ← List.drop_drop,
    drop_columnsWidth hblank flags cells hj, List.drop_left,
    List.take_left' (length_cellText hblank _)]

/-- What stands before the digits of a position. -/
theorem getElem?_columns_gap (hj : j < flags.length) {r : Nat}
    (hr : r < (gap j (flagBefore flags j) (Mask.get ⟨flags⟩ j)).length) :
    (columns blank 0 false flags cells)[columnsWidth j + r]? =
      (gap j (flagBefore flags j) (Mask.get ⟨flags⟩ j))[r]? := by
  rw [← List.getElem?_drop, drop_columnsWidth hblank flags cells hj,
    List.getElem?_append_left hr]

/-- A bracket opens before a position that is set and has no set one before it. -/
theorem opening_columns (hj : j < flags.length) :
    (columns blank 0 false flags cells)[cellColumn j - 1]? = some '(' ↔
      Mask.get ⟨flags⟩ j = true ∧ flagBefore flags j = false := by
  have hlength := length_gap j (flagBefore flags j) (Mask.get ⟨flags⟩ j)
  have hlast : cellColumn j - 1 =
      columnsWidth j + ((gap j (flagBefore flags j) (Mask.get ⟨flags⟩ j)).length - 1) := by
    rw [cellColumn_eq j (flagBefore flags j) (Mask.get ⟨flags⟩ j)]
    omega
  rw [hlast, getElem?_columns_gap hblank flags cells hj (by omega), getElem?_gap _ _ _ (by omega),
    Nat.sub_add_cancel (by omega), beq_self_eq_true]
  cases flagBefore flags j <;> cases Mask.get ⟨flags⟩ j <;> grind

/-- A bracket closes in the first column behind a position that is set, if the next one is not. -/
theorem closing_columns (hj : j ≤ flags.length) :
    (columns blank 0 false flags cells)[columnsWidth j]? = some ')' ↔
      flagBefore flags j = true ∧ Mask.get ⟨flags⟩ j = false := by
  rcases Nat.lt_or_eq_of_le hj with hlt | rfl
  · have hlength := length_gap j (flagBefore flags j) (Mask.get ⟨flags⟩ j)
    rw [← Nat.add_zero (columnsWidth j),
      getElem?_columns_gap hblank flags cells hlt (by omega), getElem?_gap _ _ _ (by omega)]
    cases flagBefore flags j <;> cases Mask.get ⟨flags⟩ j <;> grind
  · have hget : Mask.get ⟨flags⟩ flags.length = false := Mask.get_of_length_le le_rfl
    rw [← Nat.add_zero (columnsWidth flags.length), ← List.getElem?_drop,
      drop_columnsWidth_length hblank, hget]
    cases flagBefore flags flags.length <;> decide

/-- A column that shows no byte and holds no bracket is a space. -/
theorem space_columns {k : Nat} (hk : k ≤ columnsWidth flags.length)
    (hcells : ∀ i < flags.length, k ≠ cellColumn i ∧ k ≠ cellColumn i + 1)
    (hopening : ∀ i < flags.length,
      Mask.get ⟨flags⟩ i = true → flagBefore flags i = false → k ≠ cellColumn i - 1)
    (hclosing : ∀ i ≤ flags.length,
      flagBefore flags i = true → Mask.get ⟨flags⟩ i = false → k ≠ columnsWidth i) :
    (columns blank 0 false flags cells)[k]? = some ' ' := by
  rcases Nat.lt_or_eq_of_le hk with hlt | rfl
  · obtain ⟨i, hi, r, rfl, hr⟩ := exists_place hlt
    have hcolumn := cellColumn_eq i (flagBefore flags i) (Mask.get ⟨flags⟩ i)
    have hgap : r < (gap i (flagBefore flags i) (Mask.get ⟨flags⟩ i)).length := by
      obtain ⟨hfirst, hsecond⟩ := hcells i hi
      rw [columnsWidth_succ_eq] at hr
      omega
    have hnotClosing :
        (flagBefore flags i && !Mask.get ⟨flags⟩ i && r == 0) = false := by
      rw [Bool.eq_false_iff]
      intro h
      simp only [Bool.and_eq_true, Bool.not_eq_true', beq_iff_eq] at h
      obtain ⟨⟨hbefore, hget⟩, rfl⟩ := h
      exact hclosing i hi.le hbefore hget rfl
    have hnotOpening : (Mask.get ⟨flags⟩ i && !flagBefore flags i &&
        r + 1 == (gap i (flagBefore flags i) (Mask.get ⟨flags⟩ i)).length) = false := by
      rw [Bool.eq_false_iff]
      intro h
      simp only [Bool.and_eq_true, Bool.not_eq_true', beq_iff_eq] at h
      obtain ⟨⟨hget, hbefore⟩, hlast⟩ := h
      refine hopening i hi hget hbefore ?_
      omega
    rw [getElem?_columns_gap hblank flags cells hi hgap, getElem?_gap _ _ _ hgap, hnotClosing,
      hnotOpening]
    rfl
  · have hbefore : flagBefore flags flags.length = false := by
      rw [Bool.eq_false_iff]
      exact fun h => hclosing flags.length le_rfl h (Mask.get_of_length_le le_rfl) rfl
    rw [← Nat.add_zero (columnsWidth flags.length), ← List.getElem?_drop,
      drop_columnsWidth_length hblank, hbefore]
    rfl

end Columns

/-! ### Whole rows -/

section Rows

variable (style : LineStyle) (offset : Nat) {blank : List Char} (hblank : blank.length = 2)
  (cells : List (Option UInt8)) {flags : List Bool} (hflags : flags.length = style.capacity)
  (bytes : List UInt8)

/-- The header of a row, its columns, and its overlays. -/
theorem row_eq_append :
    style.row offset blank cells flags bytes =
      (Hex.padded style.offsetWidth offset ++ [':']) ++
        (columns blank 0 false flags cells ++ style.overlayText bytes) := by
  rw [row, List.append_assoc, List.append_assoc]
  rfl

/-- The header as wide as it is. -/
theorem length_header :
    (Hex.padded style.offsetWidth offset ++ [':']).length = style.headerWidth offset := by
  rw [List.length_append, Hex.length_padded]
  rfl

/-- The digits of the offset. -/
theorem getElem?_row_digits {k : Nat} (hk : k + 1 < style.headerWidth offset) :
    (style.row offset blank cells flags bytes)[k]? =
      some (Hex.upperDigit (offset / 16 ^ (style.headerWidth offset - 2 - k) % 16)) := by
  have hdigit : k < (Hex.padded style.offsetWidth offset).length := by
    rw [Hex.length_padded]
    exact Nat.lt_of_succ_lt_succ hk
  have hplace : (Hex.padded style.offsetWidth offset).length - 1 - k =
      style.headerWidth offset - 2 - k := by
    rw [Hex.length_padded, headerWidth]
    omega
  rw [row_eq_append, List.append_assoc, List.getElem?_append_left hdigit,
    Hex.getElem?_padded hdigit, hplace]

/-- The colon behind them. -/
theorem getElem?_row_colon :
    (style.row offset blank cells flags bytes)[style.headerWidth offset - 1]? = some ':' := by
  have hcolon : style.headerWidth offset - 1 = (Hex.padded style.offsetWidth offset).length := by
    rw [Hex.length_padded]
    rfl
  rw [row_eq_append, hcolon, List.append_assoc, List.getElem?_append_right le_rfl, Nat.sub_self]
  rfl

include hblank hflags

/-- The columns of a row, the last one among them. -/
theorem length_columns_eq :
    (columns blank 0 false flags cells).length = columnsWidth style.capacity + 1 := by
  have hlength := length_columns hblank 0 false flags cells
  rw [Nat.zero_add, hflags] at hlength
  exact (Nat.zero_add _).symm.trans hlength

/-- Behind the header of a row stand its columns, and behind these the overlays. -/
theorem drop_row {k : Nat} (hk : k ≤ columnsWidth style.capacity + 1) :
    (style.row offset blank cells flags bytes).drop (style.headerWidth offset + k) =
      (columns blank 0 false flags cells).drop k ++ style.overlayText bytes := by
  rw [row_eq_append, ← length_header, List.drop_length_add_append,
    List.drop_append_of_le_length (by rwa [length_columns_eq style hblank cells hflags])]

/-- A column of a row. -/
theorem getElem?_row_columns {k : Nat} (hk : k ≤ columnsWidth style.capacity) :
    (style.row offset blank cells flags bytes)[style.headerWidth offset + k]? =
      (columns blank 0 false flags cells)[k]? := by
  have hwithin : 0 < ((columns blank 0 false flags cells).drop k).length := by
    rw [List.length_drop, length_columns_eq style hblank cells hflags]
    omega
  have hfirst : style.headerWidth offset + k = style.headerWidth offset + k + 0 := rfl
  rw [hfirst, ← List.getElem?_drop, drop_row style offset hblank cells hflags bytes (by omega),
    List.getElem?_append_left hwithin, List.getElem?_drop, Nat.add_zero]

/-- Behind the columns stand the overlays. -/
theorem drop_row_overlays :
    (style.row offset blank cells flags bytes).drop
        (style.headerWidth offset + columnsWidth style.capacity + 1) = style.overlayText bytes := by
  have hall : (columns blank 0 false flags cells).drop (columnsWidth style.capacity + 1) = [] := by
    rw [← length_columns_eq style hblank cells hflags, List.drop_length]
  rw [Nat.add_assoc, drop_row style offset hblank cells hflags bytes le_rfl, hall, List.nil_append]

/-- The two characters of a position of a row. -/
theorem cell_row {i : Nat} (hi : i < style.capacity) :
    ((style.row offset blank cells flags bytes).drop
        (style.headerWidth offset + cellColumn i)).take 2 =
      cells[i]?.join.elim blank Hex.ofByte := by
  have hend := cellColumn_add_two_le hi
  have hboth : 2 ≤ ((columns blank 0 false flags cells).drop (cellColumn i)).length := by
    rw [List.length_drop, length_columns_eq style hblank cells hflags]
    omega
  rw [drop_row style offset hblank cells hflags bytes (by omega),
    List.take_append_of_le_length hboth, cell_columns hblank flags cells (by omega),
    cellText_eq_elim]

/-- A column of a row that shows no byte and holds no bracket is a space. -/
theorem space_row {k : Nat} (hlow : style.headerWidth offset ≤ k)
    (hhigh : k < style.headerWidth offset + columnsWidth style.capacity + 1)
    (hcells : ∀ i < style.capacity, k ≠ style.headerWidth offset + cellColumn i ∧
      k ≠ style.headerWidth offset + cellColumn i + 1)
    (hopening : ∀ i < style.capacity,
      Mask.get ⟨flags⟩ i = true ∧ (i = 0 ∨ Mask.get ⟨flags⟩ (i - 1) = false) →
        k ≠ style.headerWidth offset + cellColumn i - 1)
    (hclosing : ∀ i < style.capacity,
      Mask.get ⟨flags⟩ i = true ∧ Mask.get ⟨flags⟩ (i + 1) = false →
        k ≠ style.headerWidth offset + cellColumn i + 2) :
    (style.row offset blank cells flags bytes)[k]? = some ' ' := by
  obtain ⟨k, rfl⟩ := Nat.exists_eq_add_of_le hlow
  have hk : k ≤ columnsWidth style.capacity := by omega
  rw [getElem?_row_columns style offset hblank cells hflags bytes hk]
  rw [← hflags] at hcells hopening hclosing hk
  refine space_columns hblank flags cells hk ?_ ?_ ?_
  · intro i hi
    have hcell := hcells i hi
    omega
  · intro i hi hset hbefore
    have hne := hopening i hi ⟨hset, (flagBefore_eq_false_iff flags i).mp hbefore⟩
    rw [cellColumn] at hne ⊢
    omega
  · intro i hi hbefore hset
    -- there is no position before the first one, so a bracket closes behind some position
    cases i with
    | zero => cases hbefore
    | succ i =>
      rw [flagBefore_succ] at hbefore
      have hne := hclosing i hi ⟨hbefore, hset⟩
      rw [columnsWidth_succ_eq]
      omega

/-- **Where everything stands in a row.**  A bracket opens before a position that is set and has no
set position before it, and it closes behind one that has no set position behind it. -/
theorem laidOut_row :
    style.LaidOut offset blank (fun i => cells[i]?.join)
      (fun i => Mask.get ⟨flags⟩ i = true ∧ (i = 0 ∨ Mask.get ⟨flags⟩ (i - 1) = false))
      (fun i => Mask.get ⟨flags⟩ i = true ∧ Mask.get ⟨flags⟩ (i + 1) = false) bytes
      (style.row offset blank cells flags bytes) where
  digits k hk := getElem?_row_digits style offset cells bytes hk
  colon := getElem?_row_colon style offset cells bytes
  cells i hi := cell_row style offset hblank cells hflags bytes hi
  opening i hi := by
    have hend := cellColumn_add_two_le hi
    have hbefore : style.headerWidth offset + cellColumn i - 1 =
        style.headerWidth offset + (cellColumn i - 1) := by
      rw [cellColumn]
      omega
    rw [hbefore, getElem?_row_columns style offset hblank cells hflags bytes (by omega),
      opening_columns hblank flags cells (by omega), flagBefore_eq_false_iff]
  closing i hi := by
    rw [Nat.add_assoc,
      getElem?_row_columns style offset hblank cells hflags bytes (cellColumn_add_two_le hi),
      ← columnsWidth_succ_eq, closing_columns hblank flags cells (by omega), flagBefore_succ]
  spaces k hlow hhigh hcells hopening hclosing :=
    space_row style offset hblank cells hflags bytes hlow hhigh hcells hopening hclosing
  overlays := drop_row_overlays style offset hblank cells hflags bytes

end Rows

end LineStyle
end HexDiff
