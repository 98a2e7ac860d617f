import HexDiff.Proofs.Comparer.Course

/-!
# The blocks of two contents

Two contents are cut at the same places, every `lineLength` bytes.  `window` is the part of a
content that belongs to one block, `blockCount` says how many blocks there are until both contents
are used up, and `Block.ofContents` is the block with a given number.

The main statements are about streams that deliver two contents without a fault, in whatever pieces:
what a comparer meets on them depends on the contents only (`Comparer.course_eq_of_delivers`), and
it is the blocks of the contents, one after the other, and then their end
(`Comparer.blocks_course`). The first of these is why a run cannot tell where its streams were cut
(`Comparer.run_eq_run_ofBytes`).
-/

namespace HexDiff

/-! ### Windows and their number -/

/-- The bytes of a content at the positions of block `k`, as far as there are any. -/
def window (lineLength : Nat) (bytes : List UInt8) (k : Nat) : List UInt8 :=
  (bytes.drop (k * lineLength)).take lineLength

/-- The number of blocks that hold two contents; the last one may be short on both sides. -/
def blockCount (lineLength : Nat) (left right : List UInt8) : Nat :=
  (max left.length right.length + lineLength - 1) / lineLength

/-- The block with number `k` of two contents. -/
def Block.ofContents (lineLength : Nat) (left right : List UInt8) (k : Nat) : Block where
  left := window lineLength left k
  right := window lineLength right k
  mask := ⟨Mask.flagsOf lineLength (window lineLength left k) (window lineLength right k)⟩

/-- A window is no longer than a line. -/
theorem length_window_le (lineLength : Nat) (bytes : List UInt8) (k : Nat) :
    (window lineLength bytes k).length ≤ lineLength :=
  List.length_take_le _ _

/-- A window shows the bytes of the content at its positions. -/
theorem getElem?_window {lineLength i : Nat} (bytes : List UInt8) (k : Nat) (h : i < lineLength) :
    (window lineLength bytes k)[i]? = bytes[k * lineLength + i]? := by
  rw [window, List.getElem?_take_of_lt h, List.getElem?_drop]

/-- A content without bytes has nothing in its windows. -/
theorem window_nil (lineLength k : Nat) : window lineLength [] k = [] := by
  rw [window, List.drop_nil, List.take_nil]

/-- Without its first line, a content has the same windows one block earlier. -/
theorem window_drop (lineLength : Nat) (bytes : List UInt8) (k : Nat) :
    window lineLength (bytes.drop lineLength) k = window lineLength bytes (k + 1) := by
  rw [window, window, List.drop_drop, Nat.succ_mul, Nat.add_comm]

/-- Contents that are used up have no blocks. -/
theorem blockCount_nil {lineLength : Nat} (h : 1 ≤ lineLength) :
    blockCount lineLength [] [] = 0 := by
  simp only [blockCount, List.length_nil, Nat.max_self, Nat.zero_add]
  exact Nat.div_eq_of_lt (by omega)

/-- Contents that are not used up have one block more than what is behind their first block. -/
theorem blockCount_eq_succ {lineLength : Nat} {left right : List UInt8} (h : 1 ≤ lineLength)
    (hne : ¬(left = [] ∧ right = [])) :
    blockCount lineLength left right =
      blockCount lineLength (left.drop lineLength) (right.drop lineLength) + 1 := by
  have hpos : 0 < max left.length right.length := by
    by_contra hzero
    exact hne ⟨List.length_eq_zero_iff.mp (by omega), List.length_eq_zero_iff.mp (by omega)⟩
  have hdrop : max (left.length - lineLength) (right.length - lineLength) =
      max left.length right.length - lineLength := by omega
  rw [blockCount, blockCount, List.length_drop, List.length_drop, hdrop]
  rcases le_or_gt (max left.length right.length) lineLength with hle | hgt
  · rw [Nat.sub_eq_zero_of_le hle, Nat.div_eq_of_lt (by omega : 0 + lineLength - 1 < lineLength)]
    exact Nat.div_eq_of_lt_le (by omega) (by omega)
  · rw [← Nat.add_div_right _ h]
    congr 1
    omega

/-- The block after the first one is the first of what is behind it. -/
theorem Block.ofContents_drop (lineLength : Nat) (left right : List UInt8) (k : Nat) :
    Block.ofContents lineLength (left.drop lineLength) (right.drop lineLength) k =
      Block.ofContents lineLength left right (k + 1) := by
  simp only [ofContents, window_drop]

/-- Some blocks of two contents: the first one, and those behind it. -/
theorem map_ofContents_succ (lineLength : Nat) (left right : List UInt8) (k : Nat) :
    (List.range (k + 1)).map (Block.ofContents lineLength left right) =
      Block.ofContents lineLength left right 0 ::
        (List.range k).map
          (Block.ofContents lineLength (left.drop lineLength) (right.drop lineLength)) := by
  rw [List.range_succ_eq_map, List.map_cons, List.map_map]
  congr 1
  refine List.map_congr_left fun k _ => ?_
  exact (Block.ofContents_drop lineLength left right k).symm

/-! ### Streams that deliver two contents -/

/-- A window filled from a stream gets the front of what the stream delivers, if that fills it or
there is no fault behind. -/
theorem Source.exists_fill_eq {source : Source} {bytes : List UInt8} {stop : Option Fault}
    (h : source.Delivers bytes stop) {room : Nat} (hroom : room ≤ bytes.length ∨ stop = none) :
    ∃ rest : Source, rest.Delivers (bytes.drop room) stop ∧
      source.fill room = ⟨bytes.take room, none, rest⟩ := by
  obtain ⟨htaken, hfault, hrest⟩ := fill_of_delivers h room
  have hnone : (source.fill room).fault = none := by
    rw [hfault]
    rcases hroom with hle | rfl
    · exact if_neg (Nat.not_lt.mpr hle)
    · exact ite_self none
  refine ⟨(source.fill room).rest, hrest hroom, ?_⟩
  rw [← htaken, ← hnone]

namespace Comparer

/-- A step on streams neither of which fails in it: the windows get the front of what each of them
delivers, and the streams go on to deliver the rest. -/
theorem exists_step_eq (c : Comparer) {left right : Source} {lft rgt : List UInt8}
    {leftStop rightStop : Option Fault} (hleft : left.Delivers lft leftStop)
    (hright : right.Delivers rgt rightStop)
    (hlroom : c.left.length ≤ lft.length ∨ leftStop = none)
    (hrroom : c.right.length ≤ rgt.length ∨ rightStop = none) :
    ∃ left' right' : Source,
      left'.Delivers (lft.drop c.left.length) leftStop ∧
        right'.Delivers (rgt.drop c.right.length) rightStop ∧
        c.step left right =
          c.react ⟨lft.take c.left.length, none, left'⟩
            ⟨rgt.take c.right.length, none, right'⟩ := by
  obtain ⟨left', hleft', hfill⟩ := Source.exists_fill_eq hleft hlroom
  obtain ⟨right', hright', hfill'⟩ := Source.exists_fill_eq hright hrroom
  refine ⟨left', right', hleft', hright', ?_⟩
  rw [step_eq_react, hfill, hfill']

/-- Windows one of which got something have used something up. -/
theorem length_drop_add_length_drop_lt {lft rgt : List UInt8} {m n : Nat}
    (h : ¬(lft.take m = [] ∧ rgt.take n = [])) :
    (lft.drop m).length + (rgt.drop n).length < lft.length + rgt.length := by
  have hpos : 0 < (lft.take m).length ∨ 0 < (rgt.take n).length := by
    rw [List.length_pos_iff, List.length_pos_iff]
    exact not_and_or.mp h
  rw [List.length_take, List.length_take] at hpos
  rw [List.length_drop, List.length_drop]
  omega

/-- Streams that deliver the same contents are met in the same way. -/
theorem course_eq_of_delivers (c : Comparer) {left right left' right' : Source}
    {lft rgt : List UInt8} (hleft : left.Delivers lft none) (hright : right.Delivers rgt none)
    (hleft' : left'.Delivers lft none) (hright' : right'.Delivers rgt none) :
    c.course left right = c.course left' right' := by
  -- the streams may be cut quite differently, but a block uses up as much of both contents
  induction hn : lft.length + rgt.length using Nat.strong_induction_on
    generalizing c left right left' right' lft rgt with
  | _ n ih =>
    obtain ⟨l, r, hl, hr, hstep⟩ := c.exists_step_eq hleft hright (Or.inr rfl) (Or.inr rfl)
    obtain ⟨l', r', hl', hr', hstep'⟩ := c.exists_step_eq hleft' hright' (Or.inr rfl) (Or.inr rfl)
    rw [course_eq c left right, course_eq c left' right', hstep, hstep']
    by_cases hempty : lft.take c.left.length = [] ∧ rgt.take c.right.length = []
    · rw [hempty.1, hempty.2, react_nil, react_nil]
    · rw [react_of_ne c l r hempty, react_of_ne c l' r' hempty]
      have hless := length_drop_add_length_drop_lt hempty
      rw [hn] at hless
      exact congrArg _ (ih _ hless _ hl hr hl' hr' rfl)

variable {layout : Layout} {style : LineStyle}

/-- Contents that are not used up have something in their first block. -/
theorem not_take_eq_nil {n : Nat} (hn : 1 ≤ n) {lft rgt : List UInt8}
    (hne : ¬(lft = [] ∧ rgt = [])) : ¬(lft.take n = [] ∧ rgt.take n = []) := by
  simpa only [List.take_eq_nil_iff, Nat.ne_of_gt hn, false_or] using hne

/-- Streams that are not used up, and neither of which fails in the first block: this block comes
first, and then what a comparer meets behind it. -/
theorem exists_course_eq {c : Comparer} {left right : Source} {lft rgt : List UInt8}
    {leftStop rightStop : Option Fault} (hc : Fits layout style c)
    (hleft : left.Delivers lft leftStop) (hright : right.Delivers rgt rightStop)
    (hlroom : layout.lineLength ≤ lft.length ∨ leftStop = none)
    (hrroom : layout.lineLength ≤ rgt.length ∨ rightStop = none)
    (hne : ¬(lft = [] ∧ rgt = [])) :
    ∃ (next : Comparer) (left' right' : Source), Fits layout style next ∧
      left'.Delivers (lft.drop layout.lineLength) leftStop ∧
      right'.Delivers (rgt.drop layout.lineLength) rightStop ∧
      c.course left right =
        .compared (Block.ofContents layout.lineLength lft rgt 0) next
          (next.course left' right') := by
  obtain ⟨l, r, hl, hr, hstep⟩ := c.exists_step_eq hleft hright
    (by rwa [hc.length_left]) (by rwa [hc.length_right])
  rw [hc.length_left, hc.length_right] at hstep
  rw [hc.length_left] at hl
  rw [hc.length_right] at hr
  rw [react_of_ne c l r (not_take_eq_nil hc.valid.1 hne), Mask.mark_eq, hc.capacity_mask] at hstep
  refine ⟨_, l, r, hc.of_sameShape (sameShape_of_step hstep), hl, hr, ?_⟩
  rw [course_eq, hstep]
  simp only [Block.ofContents, window, Nat.zero_mul, List.drop_zero]

/-- What a comparer meets on two contents: their blocks, and then their end. -/
theorem blocks_course {c : Comparer} {left right : Source} {lft rgt : List UInt8}
    (hc : Fits layout style c) (hleft : left.Delivers lft none)
    (hright : right.Delivers rgt none) :
    (c.course left right).blocks =
        (List.range (blockCount layout.lineLength lft rgt)).map
          (Block.ofContents layout.lineLength lft rgt) ∧
      (c.course left right).fault = none := by
  induction hn : lft.length + rgt.length using Nat.strong_induction_on
    generalizing c left right lft rgt with
  | _ n ih =>
    have hpos : 1 ≤ layout.lineLength := hc.valid.1
    by_cases hempty : lft = [] ∧ rgt = []
    · obtain ⟨rfl, rfl⟩ := hempty
      obtain ⟨l, r, -, -, hstep⟩ := c.exists_step_eq hleft hright (Or.inr rfl) (Or.inr rfl)
      rw [List.take_nil, List.take_nil, react_nil] at hstep
      rw [course_eq, hstep, blockCount_nil hpos]
      exact ⟨rfl, rfl⟩
    · obtain ⟨next, l, r, hnext, hl, hr, hcourse⟩ :=
        exists_course_eq hc hleft hright (Or.inr rfl) (Or.inr rfl) hempty
      have hless := length_drop_add_length_drop_lt (not_take_eq_nil hpos hempty)
      rw [hn] at hless
      obtain ⟨hblocks, hfault⟩ := ih _ hless hnext hl hr rfl
      rw [hcourse, blockCount_eq_succ hpos hempty, map_ofContents_succ, Course.blocks,
        Course.fault, hblocks, hfault]
      exact ⟨rfl, rfl⟩

/-- **Where streams are cut does not show.**  Take any two streams that go on up to their end, cut
into pieces and interrupted wherever one likes.  A run on them has the same result as a run on
their data in one piece: the same counters, the same output, the same log, and the same comparer for
the next run. -/
theorem run_eq_run_ofBytes {σ : Type} [Outlet σ] (c : Comparer) {left right : Source}
    (hleft : ∀ event ∈ left, event.GoesOn) (hright : ∀ event ∈ right, event.GoesOn) (output : σ) :
    c.run left right output = c.run (.ofBytes left.data) (.ofBytes right.data) output := by
  have hcourse : c.course left right = c.course (.ofBytes left.data) (.ofBytes right.data) :=
    c.course_eq_of_delivers (Source.delivers_data hleft) (Source.delivers_data hright)
      (Source.delivers_ofBytes _) (Source.delivers_ofBytes _)
  rw [run, run, runFrom_eq_replay, runFrom_eq_replay, hcourse]

/-- Pieces that end in the middle of a block, with interruptions on both sides. -/
theorem run_eq_run_ofBytes_pieces :
    run ⟨⟨4, 4, {}⟩, ⟨4, 4, [.ascii]⟩, [0, 0, 0, 0], [0, 0, 0, 0], .clear 4, ""⟩
        [.data [65], .failed ⟨.interrupted, ""⟩, .data [65, 65], .data [65, 66]]
        [.failed ⟨.interrupted, ""⟩, .failed ⟨.interrupted, ""⟩, .data [65, 65, 65, 65], .data [67]]
        "" =
      run ⟨⟨4, 4, {}⟩, ⟨4, 4, [.ascii]⟩, [0, 0, 0, 0], [0, 0, 0, 0], .clear 4, ""⟩
        (.ofBytes [65, 65, 65, 65, 66]) (.ofBytes [65, 65, 65, 65, 67]) "" :=
  run_eq_run_ofBytes _ (by simp [Event.GoesOn]) (by simp [Event.GoesOn]) ""

end Comparer
end HexDiff
