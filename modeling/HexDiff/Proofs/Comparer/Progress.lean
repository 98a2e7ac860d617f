import HexDiff.Proofs.Comparer.Blocks

/-!
# How far a comparison has come after some blocks

`Progress.after` is the progress after the first `k` blocks of two contents, told by the contents
and not by the blocks: the differing positions so far are those below `k * lineLength`, and each
side has been read up to there or to its end.  One more block leads from one such progress to the
next (`Progress.advance_after`), so a comparison of all blocks ends with `Stats.ofContents`, the
counters of the contents as a whole (`Progress.stats_after_blockCount`).
-/

namespace HexDiff

/-! ### Where two contents differ -/

/-- Two contents show something different at a position: two bytes that differ, or a byte on one
side only. -/
def DiffersAt (left right : List UInt8) (i : Nat) : Prop :=
  left[i]? ≠ right[i]?

instance (left right : List UInt8) : DecidablePred (DiffersAt left right) :=
  fun i => inferInstanceAs (Decidable (left[i]? ≠ right[i]?))

/-- The windows of block `k` are not the same. -/
def BlockDiffers (lineLength : Nat) (left right : List UInt8) (k : Nat) : Prop :=
  window lineLength left k ≠ window lineLength right k

instance (lineLength : Nat) (left right : List UInt8) :
    DecidablePred (BlockDiffers lineLength left right) :=
  fun k => inferInstanceAs (Decidable (window lineLength left k ≠ window lineLength right k))

/-- The windows of a block are not the same if the contents differ somewhere in its line. -/
theorem blockDiffers_iff {lineLength : Nat} {left right : List UInt8} {k : Nat} :
    BlockDiffers lineLength left right k ↔
      ∃ i < lineLength, DiffersAt left right (k * lineLength + i) := by
  rw [BlockDiffers, ← Mask.exists_getElem?_ne_iff (length_window_le _ left k)
    (length_window_le _ right k)]
  refine exists_congr fun i => and_congr_right fun hi => ?_
  rw [getElem?_window left k hi, getElem?_window right k hi, DiffersAt]

/-- The mask of a block tells whether its windows differ. -/
theorem Block.differs_ofContents (lineLength : Nat) (left right : List UInt8) (k : Nat) :
    (Block.ofContents lineLength left right k).mask.differs =
      decide (BlockDiffers lineLength left right k) := by
  rw [Bool.eq_iff_iff, decide_eq_true_iff]
  exact Mask.differs_flagsOf_iff (length_window_le _ _ _) (length_window_le _ _ _)

/-- The mask of a block counts the differing positions of its line. -/
theorem Block.count_ofContents (lineLength : Nat) (left right : List UInt8) (k : Nat) :
    (Block.ofContents lineLength left right k).mask.count =
      Nat.count (fun i => DiffersAt left right (k * lineLength + i)) lineLength := by
  unfold Block.ofContents
  rw [Mask.count_flagsOf, Nat.count_eq_card_filter_range, Nat.count_eq_card_filter_range]
  congr 1
  refine Finset.filter_congr fun i hi => ?_
  have hlt : i < lineLength := Finset.mem_range.mp hi
  rw [getElem?_window left k hlt, getElem?_window right k hlt, DiffersAt]

/-- What a side has of a block, added to what it had before. -/
theorem min_add_length_window (lineLength : Nat) (bytes : List UInt8) (k : Nat) :
    min bytes.length (k * lineLength) + (window lineLength bytes k).length =
      min bytes.length ((k + 1) * lineLength) := by
  rw [window, List.length_take, List.length_drop, Nat.succ_mul]
  omega

/-! ### Progress in closed form -/

/-- The progress after the first `k` blocks of two contents. -/
def Progress.after (lineLength : Nat) (left right : List UInt8) (k : Nat) : Progress where
  stats :=
    { blocks := k
      differingBlocks := Nat.count (BlockDiffers lineLength left right) k
      differingBytes := Nat.count (DiffersAt left right) (k * lineLength)
      leftLength := min left.length (k * lineLength)
      rightLength := min right.length (k * lineLength) }
  offset := k * lineLength
  afterDifference := decide (0 < k ∧ BlockDiffers lineLength left right (k - 1))

/-- Before the first block nothing is counted. -/
theorem Progress.after_zero (lineLength : Nat) (left right : List UInt8) :
    Progress.after lineLength left right 0 = {} := by
  simp [Progress.after]

/-- One block further. -/
theorem Progress.advance_after (lineLength : Nat) (left right : List UInt8) (k : Nat) :
    (Progress.after lineLength left right k).advance lineLength
        (Block.ofContents lineLength left right k) =
      Progress.after lineLength left right (k + 1) := by
  unfold Progress.advance Progress.after
  rw [Block.differs_ofContents, Block.count_ofContents, ← Nat.count_add, ← Nat.succ_mul]
  have hblocks : (decide (BlockDiffers lineLength left right k)).toNat =
      if BlockDiffers lineLength left right k then 1 else 0 := by
    by_cases hdiffers : BlockDiffers lineLength left right k <;> simp [hdiffers]
  rw [hblocks, ← Nat.count_succ]
  simp only [Block.ofContents, min_add_length_window, Nat.succ_pos, true_and,
    Nat.add_sub_cancel, Nat.succ_eq_add_one]

/-- Several blocks further. -/
theorem Progress.advanceAll_after (lineLength : Nat) (left right : List UInt8) (k m : Nat) :
    (Progress.after lineLength left right k).advanceAll lineLength
        ((List.range' k m).map (Block.ofContents lineLength left right)) =
      Progress.after lineLength left right (k + m) := by
  induction m generalizing k with
  | zero => rfl
  | succ m ih =>
    rw [List.range'_succ, List.map_cons, Progress.advanceAll, Progress.advance_after, ih]
    congr 1
    omega

/-! ### The counters of two contents -/

/-- The positions at which two contents differ. -/
def differingPositions (left right : List UInt8) : Finset Nat :=
  (Finset.range (max left.length right.length)).filter (DiffersAt left right)

/-- The counters of two contents: the blocks that hold them, the differing positions, the blocks in
which these lie, and the lengths. -/
def Stats.ofContents (lineLength : Nat) (left right : List UInt8) : Stats where
  blocks := blockCount lineLength left right
  differingBlocks := ((differingPositions left right).image (· / lineLength)).card
  differingBytes := (differingPositions left right).card
  leftLength := left.length
  rightLength := right.length

/-- A position at which two contents differ lies in one of them. -/
theorem DiffersAt.lt {left right : List UInt8} {i : Nat} (h : DiffersAt left right i) :
    i < max left.length right.length := by
  by_contra hge
  exact h (by rw [List.getElem?_eq_none (by omega), List.getElem?_eq_none (by omega)])

/-- The differing positions are just those at which the contents differ. -/
@[simp] theorem mem_differingPositions {left right : List UInt8} {i : Nat} :
    i ∈ differingPositions left right ↔ DiffersAt left right i := by
  rw [differingPositions, Finset.mem_filter, Finset.mem_range]
  exact ⟨And.right, fun h => ⟨h.lt, h⟩⟩

/-- Contents that differ nowhere are equal. -/
theorem differingPositions_eq_empty_iff {left right : List UInt8} :
    differingPositions left right = ∅ ↔ left = right := by
  constructor
  · intro hempty
    refine List.ext_getElem? fun i => ?_
    by_contra hdiffers
    have hmem : i ∈ differingPositions left right := mem_differingPositions.mpr hdiffers
    rw [hempty] at hmem
    exact Finset.notMem_empty i hmem
  · rintro rfl
    refine Finset.eq_empty_of_forall_notMem fun i hi => ?_
    exact mem_differingPositions.mp hi rfl

/-- The blocks of two contents hold all of them. -/
theorem max_length_le_blockCount_mul {lineLength : Nat} (h : 1 ≤ lineLength)
    (left right : List UInt8) :
    max left.length right.length ≤ blockCount lineLength left right * lineLength := by
  rw [blockCount]
  have hdiv := Nat.div_add_mod (max left.length right.length + lineLength - 1) lineLength
  have hmod := Nat.mod_lt (max left.length right.length + lineLength - 1) h
  rw [Nat.mul_comm] at hdiv
  omega

/-- A block that differs is one of those that hold the contents. -/
theorem BlockDiffers.lt {lineLength : Nat} (h : 1 ≤ lineLength) {left right : List UInt8} {k : Nat}
    (hk : BlockDiffers lineLength left right k) : k < blockCount lineLength left right := by
  obtain ⟨i, -, hi⟩ := blockDiffers_iff.mp hk
  have hlt := lt_of_lt_of_le hi.lt (max_length_le_blockCount_mul h left right)
  exact Nat.lt_of_mul_lt_mul_right (lt_of_le_of_lt (Nat.le_add_right _ i) hlt)

/-- The blocks that differ are those in which a differing position lies. -/
theorem image_differingPositions {lineLength : Nat} (h : 1 ≤ lineLength) (left right : List UInt8) :
    (differingPositions left right).image (· / lineLength) =
      (Finset.range (blockCount lineLength left right)).filter
        (BlockDiffers lineLength left right) := by
  ext k
  rw [Finset.mem_image, Finset.mem_filter, Finset.mem_range, blockDiffers_iff]
  constructor
  · rintro ⟨i, hi, rfl⟩
    rw [mem_differingPositions] at hi
    have hall := max_length_le_blockCount_mul h left right
    refine ⟨Nat.div_lt_of_lt_mul ?_, i % lineLength, Nat.mod_lt i h, ?_⟩
    · rw [Nat.mul_comm]
      exact lt_of_lt_of_le hi.lt hall
    · rwa [Nat.div_add_mod']
  · rintro ⟨-, i, hi, hdiffers⟩
    refine ⟨k * lineLength + i, mem_differingPositions.mpr hdiffers, ?_⟩
    rw [Nat.mul_comm, Nat.mul_add_div h, Nat.div_eq_of_lt hi, Nat.add_zero]

/-- After all blocks the counters are those of the contents. -/
theorem Progress.stats_after_blockCount {lineLength : Nat} (h : 1 ≤ lineLength)
    (left right : List UInt8) :
    (Progress.after lineLength left right (blockCount lineLength left right)).stats =
      Stats.ofContents lineLength left right := by
  have hall := max_length_le_blockCount_mul h left right
  have hpositions :
      (Finset.range (blockCount lineLength left right * lineLength)).filter
        (DiffersAt left right) = differingPositions left right := by
    ext i
    rw [Finset.mem_filter, Finset.mem_range, mem_differingPositions]
    exact ⟨And.right, fun hi => ⟨lt_of_lt_of_le hi.lt hall, hi⟩⟩
  unfold Progress.after Stats.ofContents
  rw [image_differingPositions h, Nat.count_eq_card_filter_range, Nat.count_eq_card_filter_range,
    hpositions, Nat.min_eq_left (le_trans (Nat.le_max_left _ _) hall),
    Nat.min_eq_left (le_trans (Nat.le_max_right _ _) hall)]

end HexDiff
