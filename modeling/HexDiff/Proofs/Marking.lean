import HexDiff.Mask
import Mathlib.Data.Nat.Count

/-!
# What a marked mask says

The flag of a position says whether the two windows show something different there: two bytes that
differ, or a byte on one side only.  With `window[i]?` for what a window shows at position `i` this
is one inequality, `lft[i]? ≠ rgt[i]?`.

Marking goes over the flags three times, and each time another stretch of them is set: where both
windows are, where only the longer one is, and the rest.  Together the three leave no flag as it was
(`getElem?_remark`), so that the flags of a marked mask have a closed form (`mark_eq`).

From this come what the flags tell together: whether the windows are equal (`differs_flagsOf_iff`),
and at how many positions they differ (`count_flagsOf`).  What marking finds out on its way agrees
with them (`recompute_exact`).
-/

namespace HexDiff
namespace Mask

/-! ### The three updates -/

/-- The first update keeps the number of flags. -/
theorem length_markShared (different : Bool) (flags : List Bool) (lft rgt : List UInt8) :
    (markShared different flags lft rgt).1.length = flags.length := by
  fun_induction markShared different flags lft rgt with
  | case1 different _ flags l lft r rgt marked _ heq ih =>
    rw [heq] at ih
    exact congrArg Nat.succ ih
  | case2 => rfl

/-- The first update compares the positions that both windows have. -/
theorem getElem?_markShared (different : Bool) (flags : List Bool) (lft rgt : List UInt8)
    (i : Nat) :
    (markShared different flags lft rgt).1[i]? =
      flags[i]?.map fun flag =>
        if i < min lft.length rgt.length then decide (lft[i]? ≠ rgt[i]?) else flag := by
  fun_induction markShared different flags lft rgt generalizing i with
  | case1 different _ flags l lft r rgt marked _ heq ih =>
    cases i with
    | zero => simp [bne, beq_eq_decide]
    | succ i =>
      have hmore := ih i
      rw [heq] at hmore
      simpa using hmore
  | case2 different flags lft rgt hnot =>
    -- one of the three lists is used up, so there is no position to compare
    have hi : flags[i]? = none ∨ ¬i < min lft.length rgt.length := by
      rcases flags with _ | ⟨flag, flags⟩
      · exact Or.inl rfl
      · right
        rcases lft with _ | ⟨l, lft⟩
        · simp
        · rcases rgt with _ | ⟨r, rgt⟩
          · simp
          · exact (hnot flag flags l lft r rgt rfl rfl rfl).elim
    rcases hi with hi | hi
    · rw [hi]
      rfl
    · simp only [hi, if_false, Option.map_id']

/-- Whether windows of one length differ is found out by the first update alone, if there are flags
for all of their positions. -/
theorem markShared_snd {lft rgt : List UInt8} (hlength : lft.length = rgt.length)
    {flags : List Bool} (hfit : lft.length ≤ flags.length) (different : Bool) :
    (markShared different flags lft rgt).2 = (different || decide (lft ≠ rgt)) := by
  fun_induction markShared different flags lft rgt with
  | case1 different _ flags l lft r rgt marked more heq ih =>
    have hmore := ih (Nat.succ.inj hlength) (Nat.le_of_succ_le_succ hfit)
    rw [heq] at hmore
    rw [hmore]
    by_cases hhead : l = r
    · simp [hhead]
    · simp [hhead]
  | case2 different flags lft rgt hnot =>
    have hnil : lft = [] := by
      rcases lft with _ | ⟨l, lft⟩
      · rfl
      · obtain ⟨flag, flags, rfl⟩ := List.exists_cons_of_length_pos (Nat.zero_lt_of_lt hfit)
        obtain ⟨r, rgt, rfl⟩ := List.exists_cons_of_length_eq_add_one hlength.symm
        exact (hnot flag flags l lft r rgt rfl rfl rfl).elim
    obtain rfl : [] = rgt := (List.eq_nil_of_length_eq_zero (hlength ▸ hnil ▸ rfl)).symm
    simp [hnil]

/-- The other two updates set the flags of a range. -/
theorem getElem?_setRange (flags : List Bool) (start stop : Nat) (value : Bool) (i : Nat) :
    (setRange flags start stop value)[i]? =
      flags[i]?.map fun flag => if start ≤ i ∧ i < stop then value else flag := by
  rw [setRange, List.getElem?_mapIdx]

/-- Setting a range keeps the number of flags. -/
theorem length_setRange (flags : List Bool) (start stop : Nat) (value : Bool) :
    (setRange flags start stop value).length = flags.length := by
  rw [setRange, List.length_mapIdx]

/-- Setting an empty range changes nothing. -/
theorem setRange_of_le {start stop : Nat} (h : stop ≤ start) (flags : List Bool) (value : Bool) :
    setRange flags start stop value = flags := by
  refine List.ext_getElem? fun i => ?_
  have hempty : ¬(start ≤ i ∧ i < stop) := by omega
  simp only [getElem?_setRange, hempty, if_false, Option.map_id']

/-! ### All updates together -/

/-- The flags after the three updates. -/
theorem remark_fst (flags : List Bool) (lft rgt : List UInt8) :
    (remark flags lft rgt).1 =
      setRange
        (setRange (markShared false flags lft rgt).1 (min lft.length rgt.length)
          (max lft.length rgt.length) true)
        (max lft.length rgt.length) flags.length false := by
  have hlength := length_markShared false flags lft rgt
  unfold remark
  by_cases h : min lft.length rgt.length < max lft.length rgt.length
  · simp only [h, if_true, length_setRange, hlength]
  · simp only [h, if_false, hlength, setRange_of_le (Nat.le_of_not_lt h)]

/-- A difference is found among the positions that both windows have, or in their lengths. -/
theorem remark_snd (flags : List Bool) (lft rgt : List UInt8) :
    (remark flags lft rgt).2 =
      ((markShared false flags lft rgt).2 || decide (lft.length ≠ rgt.length)) := by
  unfold remark
  by_cases h : min lft.length rgt.length < max lft.length rgt.length
  · have hne : lft.length ≠ rgt.length := by omega
    simp only [h, if_true, decide_eq_true hne, Bool.or_true]
  · have heq : lft.length = rgt.length := by omega
    simp only [h, if_false, decide_eq_false (not_not.mpr heq), Bool.or_false]

/-- Nothing of the former flags is left: there is one update for each position. -/
theorem getElem?_remark {flags : List Bool} {i : Nat} (hi : i < flags.length)
    (lft rgt : List UInt8) :
    (remark flags lft rgt).1[i]? = some (decide (lft[i]? ≠ rgt[i]?)) := by
  rw [remark_fst, getElem?_setRange, getElem?_setRange, getElem?_markShared,
    List.getElem?_eq_getElem hi]
  simp only [Option.map_some]
  rcases lt_or_ge i (min lft.length rgt.length) with hshared | hbehind
  · -- both windows have this position, so only the first update is about it
    have hset : ¬(min lft.length rgt.length ≤ i ∧ i < max lft.length rgt.length) := by omega
    have hclear : ¬(max lft.length rgt.length ≤ i ∧ i < flags.length) := by omega
    rw [if_neg hclear, if_neg hset, if_pos hshared]
  · rcases lt_or_ge i (max lft.length rgt.length) with hone | hnone
    · -- one window has it
      have hclear : ¬(max lft.length rgt.length ≤ i ∧ i < flags.length) := by omega
      have hne : lft[i]? ≠ rgt[i]? := by
        rcases lt_or_ge i lft.length with hlft | hlft
        · rw [List.getElem?_eq_getElem hlft, List.getElem?_eq_none (by omega)]
          exact Option.some_ne_none _
        · rw [List.getElem?_eq_none hlft, List.getElem?_eq_getElem (by omega)]
          exact (Option.some_ne_none _).symm
      rw [if_neg hclear, if_pos ⟨hbehind, hone⟩, decide_eq_true hne]
    · -- neither window has it
      have heq : lft[i]? = rgt[i]? := by
        rw [List.getElem?_eq_none (by omega), List.getElem?_eq_none (by omega)]
      rw [if_pos ⟨hnone, hi⟩, decide_eq_false (not_not.mpr heq)]

/-- What is found out is whether the windows differ, if there are flags for all of their
positions. -/
theorem remark_snd_of_le {flags : List Bool} {lft rgt : List UInt8}
    (hfit : max lft.length rgt.length ≤ flags.length) :
    (remark flags lft rgt).2 = decide (lft ≠ rgt) := by
  rw [remark_snd]
  by_cases hlength : lft.length = rgt.length
  · rw [markShared_snd hlength (le_of_max_le_left hfit), decide_eq_false (not_not.mpr hlength),
      Bool.false_or, Bool.or_false]
  · have hne : lft ≠ rgt := fun heq => hlength (congrArg List.length heq)
    rw [decide_eq_true hlength, Bool.or_true, decide_eq_true hne]

/-! ### The flags in closed form -/

/-- The flags of a line of `capacity` positions over two windows. -/
def flagsOf (capacity : Nat) (lft rgt : List UInt8) : List Bool :=
  (List.range capacity).map fun i => decide (lft[i]? ≠ rgt[i]?)

/-- There is a flag for each position. -/
@[simp] theorem length_flagsOf (capacity : Nat) (lft rgt : List UInt8) :
    (flagsOf capacity lft rgt).length = capacity := by
  rw [flagsOf, List.length_map, List.length_range]

/-- The flag of a position. -/
theorem get_flagsOf (capacity : Nat) (lft rgt : List UInt8) (i : Nat) :
    get ⟨flagsOf capacity lft rgt⟩ i = true ↔ i < capacity ∧ lft[i]? ≠ rgt[i]? := by
  unfold get flagsOf
  rw [List.getD_eq_getElem?_getD, List.getElem?_map]
  rcases lt_or_ge i capacity with hi | hi
  · simp [hi]
  · simp [Nat.not_lt.mpr hi]

/-- The flags do not tell which window is which. -/
theorem flagsOf_comm (capacity : Nat) (lft rgt : List UInt8) :
    flagsOf capacity rgt lft = flagsOf capacity lft rgt := by
  unfold flagsOf
  refine List.map_congr_left fun i _ => ?_
  rw [decide_eq_decide]
  exact ne_comm

/-- The flags of all masks with one capacity are marked in the same way. -/
theorem remark_eq_flagsOf (flags : List Bool) (lft rgt : List UInt8) :
    (remark flags lft rgt).1 = flagsOf flags.length lft rgt := by
  have hlength : (remark flags lft rgt).1.length = flags.length := by
    rw [remark_fst, length_setRange, length_setRange, length_markShared]
  refine List.ext_getElem? fun i => ?_
  rcases lt_or_ge i flags.length with hi | hi
  · rw [getElem?_remark hi, flagsOf, List.getElem?_map, List.getElem?_range hi, Option.map_some]
  · rw [List.getElem?_eq_none (hlength ▸ hi), List.getElem?_eq_none (by rwa [length_flagsOf])]

/-- Marking makes the same of all masks with one capacity. -/
theorem mark_eq (m : Mask) (lft rgt : List UInt8) :
    m.mark lft rgt = ⟨flagsOf m.capacity lft rgt⟩ := by
  rw [mark, remark_eq_flagsOf]
  rfl

/-- Marking keeps the number of positions. -/
@[simp] theorem capacity_mark (m : Mask) (lft rgt : List UInt8) :
    (m.mark lft rgt).capacity = m.capacity := by
  rw [mark_eq]
  exact length_flagsOf m.capacity lft rgt

/-! ### What the flags tell together -/

/-- Two windows are not the same exactly if they show something different at some position of their
line. -/
theorem exists_getElem?_ne_iff {capacity : Nat} {lft rgt : List UInt8}
    (hlft : lft.length ≤ capacity) (hrgt : rgt.length ≤ capacity) :
    (∃ i < capacity, lft[i]? ≠ rgt[i]?) ↔ lft ≠ rgt := by
  constructor
  · rintro ⟨i, -, hi⟩ rfl
    exact hi rfl
  · intro hne
    by_contra hall
    push Not at hall
    refine hne (List.ext_getElem? fun i => ?_)
    rcases lt_or_ge i capacity with hi | hi
    · exact hall i hi
    · rw [List.getElem?_eq_none (by omega), List.getElem?_eq_none (by omega)]

/-- Windows that are no longer than the mask differ exactly if some flag is set. -/
theorem differs_flagsOf_iff {capacity : Nat} {lft rgt : List UInt8}
    (hlft : lft.length ≤ capacity) (hrgt : rgt.length ≤ capacity) :
    differs ⟨flagsOf capacity lft rgt⟩ = true ↔ lft ≠ rgt := by
  rw [← exists_getElem?_ne_iff hlft hrgt]
  simp [differs, flagsOf]

/-- The count is the number of positions at which the windows differ. -/
theorem count_flagsOf (capacity : Nat) (lft rgt : List UInt8) :
    count ⟨flagsOf capacity lft rgt⟩ = Nat.count (fun i => lft[i]? ≠ rgt[i]?) capacity := by
  rw [Nat.count_eq_card_filter_range, count, flagsOf, List.count, List.countP_map,
    List.countP_eq_length_filter]
  simp only [Function.comp_def, beq_true]
  rfl

/-- Something is counted exactly if some flag is set. -/
theorem count_pos_iff (m : Mask) : 0 < m.count ↔ m.differs = true := by
  rw [count, differs, List.count_pos_iff, List.any_eq_true]
  exact ⟨fun h => ⟨true, h, rfl⟩, fun ⟨_, hmem, hset⟩ => hset ▸ hmem⟩

/-! ### Marking a mask in place -/

/-- A mask that is large enough is marked. -/
theorem recompute_of_le {m : Mask} {lft rgt : List UInt8}
    (h : max lft.length rgt.length ≤ m.capacity) :
    m.recompute lft rgt = (.ok (decide (lft ≠ rgt)), m.mark lft rgt) := by
  rw [recompute, if_neg (Nat.not_lt.mpr h), ← remark_snd_of_le h]
  rfl

/-- **Marking in place.**  Take two windows and a number of positions.  If the longer window has no
more positions, then all masks of this size become one and the same mask by being marked, whatever
was marked in them before and whichever of the windows comes first.  In it a position is set exactly
if it is inside one of the windows at least and they show something different there.  The result
tells whether the windows differ, and this agrees with the number of positions that are set.  If a
window has more positions, it is refused, and all flags stay as they were. -/
theorem recompute_exact (capacity : Nat) (lft rgt : List UInt8) :
    (max lft.length rgt.length ≤ capacity →
      ∃ marked : Mask, marked.capacity = capacity ∧
        (∀ i, marked.get i = true ↔ i < max lft.length rgt.length ∧ lft[i]? ≠ rgt[i]?) ∧
        (0 < marked.count ↔ lft ≠ rgt) ∧
        ∀ m : Mask, m.capacity = capacity →
          m.recompute lft rgt = (.ok (decide (lft ≠ rgt)), marked) ∧
            m.recompute rgt lft = (.ok (decide (lft ≠ rgt)), marked)) ∧
      (capacity < max lft.length rgt.length → ∀ m : Mask, m.capacity = capacity →
        m.recompute lft rgt = (.error ⟨max lft.length rgt.length, capacity⟩, m)) := by
  constructor
  · intro hfit
    refine ⟨⟨flagsOf capacity lft rgt⟩, length_flagsOf capacity lft rgt, ?_, ?_, ?_⟩
    · intro i
      rw [get_flagsOf]
      refine and_congr_left fun hne => ?_
      -- where the windows show something different, one of them has the position
      have hinside : i < max lft.length rgt.length := by
        by_contra hout
        apply hne
        rw [List.getElem?_eq_none (by omega), List.getElem?_eq_none (by omega)]
      exact iff_of_true (hinside.trans_le hfit) hinside
    · rw [count_pos_iff]
      exact differs_flagsOf_iff (le_of_max_le_left hfit) (le_of_max_le_right hfit)
    · rintro m rfl
      have hswap : max rgt.length lft.length ≤ m.capacity := by rwa [max_comm]
      constructor
      · rw [recompute_of_le hfit, mark_eq]
      · rw [recompute_of_le hswap, mark_eq, flagsOf_comm, decide_eq_decide.mpr ne_comm]
  · rintro hlong m rfl
    exact if_pos hlong

/-- A mask that is full of marks of another pair of windows, and one that is too small. -/
theorem recompute_exact_reused :
    (∃ marked : Mask, marked.get 1 = true ∧ marked.get 2 = true ∧ ¬marked.get 3 = true ∧
      (⟨[true, true, true, true]⟩ : Mask).recompute [1, 2, 3] [1, 9] = (.ok true, marked)) ∧
      (⟨[true, false]⟩ : Mask).recompute [1, 2, 3] [1, 9] = (.error ⟨3, 2⟩, ⟨[true, false]⟩) := by
  constructor
  · obtain ⟨marked, -, hget, -, hall⟩ := (recompute_exact 4 [1, 2, 3] [1, 9]).1 (by decide)
    refine ⟨marked, ?_, ?_, ?_, (hall ⟨[true, true, true, true]⟩ rfl).1⟩
    · exact (hget 1).mpr (by decide)
    · exact (hget 2).mpr (by decide)
    · exact mt (hget 3).mp (by decide)
  · exact (recompute_exact 2 [1, 2, 3] [1, 9]).2 (by decide) ⟨[true, false]⟩ rfl

end Mask
end HexDiff
