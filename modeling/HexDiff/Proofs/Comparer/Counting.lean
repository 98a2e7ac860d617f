import HexDiff.Proofs.Comparer.Report
import Mathlib.Algebra.Order.BigOperators.Group.Finset
import Mathlib.Order.Interval.Finset.Nat

/-!
# What the counters say

The counters of a comparison are added up block by block, from masks that are marked anew for each
of them.  In the end they speak about the two contents as a whole, and the length of a line shows
only in the number of blocks: `Stats.ofContents`.

No differing position means equal contents, and then nothing is written.  Each differing block has a
differing position, and no more of them than a line has positions.
-/

namespace HexDiff

/-! ### Equal contents -/

/-- No block differs exactly if the contents are equal. -/
theorem Stats.identical_ofContents_iff (lineLength : Nat) (left right : List UInt8) :
    (Stats.ofContents lineLength left right).identical = true ↔ left = right := by
  rw [identical, beq_iff_eq, ofContents, Finset.card_eq_zero, Finset.image_eq_empty]
  exact differingPositions_eq_empty_iff

/-- The report is empty exactly if the contents are equal. -/
theorem reportText_eq_nil_iff {layout : Layout} (hvalid : layout.Valid) (style : LineStyle)
    (left right : List UInt8) : reportText layout style left right = [] ↔ left = right := by
  rw [reportText, List.flatMap_eq_nil_iff, ← differingPositions_eq_empty_iff,
    ← Finset.image_eq_empty (f := (· / layout.lineLength)), image_differingPositions hvalid.1,
    Finset.filter_eq_empty_iff]
  simp only [List.mem_range, Finset.mem_range, blockText_eq_nil_iff]

/-! ### Positions and blocks -/

/-- A differing block has a differing position. -/
theorem Stats.differingBlocks_le (lineLength : Nat) (left right : List UInt8) :
    (Stats.ofContents lineLength left right).differingBlocks ≤
      (Stats.ofContents lineLength left right).differingBytes := by
  change ((differingPositions left right).image (· / lineLength)).card ≤ _
  exact Finset.card_image_le

/-- A differing block has no more differing positions than a line has positions. -/
theorem Stats.differingBytes_le {lineLength : Nat} (h : 1 ≤ lineLength) (left right : List UInt8) :
    (Stats.ofContents lineLength left right).differingBytes ≤
      lineLength * (Stats.ofContents lineLength left right).differingBlocks := by
  change (differingPositions left right).card ≤
    lineLength * ((differingPositions left right).image (· / lineLength)).card
  refine Finset.card_le_mul_card_image _ lineLength fun k _ => ?_
  have hsub : (differingPositions left right).filter (· / lineLength = k) ⊆
      Finset.Ico (k * lineLength) (k * lineLength + lineLength) := by
    intro i hi
    obtain ⟨-, hk⟩ := Finset.mem_filter.mp hi
    have hdiv := Nat.div_add_mod' i lineLength
    have hmod := Nat.mod_lt i h
    rw [hk] at hdiv
    rw [Finset.mem_Ico]
    omega
  calc ((differingPositions left right).filter (· / lineLength = k)).card
      ≤ (Finset.Ico (k * lineLength) (k * lineLength + lineLength)).card := Finset.card_le_card hsub
    _ = lineLength := by rw [Nat.card_Ico, Nat.add_sub_cancel_left]

/-! ### The counters of a run -/

/-- **The counters of a comparison.**  For two contents there is one value of the counters, and a
comparer, whatever it has been used for before, returns no other.  A run on an output that refuses
nothing returns it for certain if there is a column for the offsets of the style.  It tells the
blocks that hold the contents, the lengths, the positions at which they differ, and the blocks in
which these positions lie.

So the contents are equal exactly if no block differs, and exactly if nothing is written; and each
differing block has between one differing position and a line full of them. -/
theorem run_counts {layout : Layout} {style : LineStyle} {c : Comparer}
    (hc : Comparer.Reachable layout style c) (left right : List UInt8) :
    ∃ stats : Stats,
      (∀ {σ : Type} [Outlet σ] (output : σ) (s : Stats),
        (c.run (.ofBytes left) (.ofBytes right) output).outcome = .ok s → s = stats) ∧
      (∀ {σ : Type} [Outlet σ] (view : Outlet.Lossless σ) (output : σ), view.Open output →
        let result := c.run (.ofBytes left) (.ofBytes right) output
        (style.offsetWidth ≤ Hex.maxWidth → result.outcome = .ok stats) ∧
          (result.outcome = .ok stats →
            (view.arrived result.output = view.arrived output ↔ left = right))) ∧
      stats.blocks = (max left.length right.length + layout.lineLength - 1) / layout.lineLength ∧
      stats.leftLength = left.length ∧ stats.rightLength = right.length ∧
      stats.differingBytes = ((Finset.range (max left.length right.length)).filter
        fun i => left[i]? ≠ right[i]?).card ∧
      stats.differingBlocks = (((Finset.range (max left.length right.length)).filter
        fun i => left[i]? ≠ right[i]?).image (· / layout.lineLength)).card ∧
      (stats.identical = true ↔ left = right) ∧
      stats.differingBlocks ≤ stats.differingBytes ∧
      stats.differingBytes ≤ layout.lineLength * stats.differingBlocks := by
  have hfits := hc.fits
  refine ⟨Stats.ofContents layout.lineLength left right, ?_, ?_, rfl, rfl, rfl, rfl, rfl,
    Stats.identical_ofContents_iff _ left right, Stats.differingBlocks_le _ left right,
    Stats.differingBytes_le hfits.valid.1 left right⟩
  · intro σ _ output s houtcome
    obtain ⟨pieces, -, -, hrun⟩ := Comparer.exists_pieces_run hfits (Source.delivers_ofBytes left)
      (Source.delivers_ofBytes right) output
    rw [hrun] at houtcome
    cases hwrite : (Outlet.writeAll output pieces).1 with
    | error fault =>
      rw [hwrite] at houtcome
      cases houtcome
    | ok _ =>
      rw [hwrite] at houtcome
      by_cases hshow : style.CanShow left right
      · rw [if_pos hshow] at houtcome
        exact (Except.ok.inj houtcome).symm
      · rw [if_neg hshow] at houtcome
        cases houtcome
  · intro σ _ view output hopen result
    by_cases hshow : style.CanShow left right
    · obtain ⟨houtcome, harrived⟩ := Comparer.run_of_lossless hfits (Source.delivers_ofBytes left)
        (Source.delivers_ofBytes right) hshow view hopen
      refine ⟨fun _ => houtcome, fun _ => ?_⟩
      simp only [result]
      rw [harrived, List.append_right_eq_self, utf8_eq_nil_iff]
      exact reportText_eq_nil_iff hfits.valid style left right
    · obtain ⟨houtcome, -⟩ := Comparer.run_of_not_canShow hfits (Source.delivers_ofBytes left)
        (Source.delivers_ofBytes right) hshow view hopen
      refine ⟨fun hwidth => absurd (Or.inl hwidth) hshow, fun hok => ?_⟩
      rw [houtcome] at hok
      cases hok

/-- Six bytes against the same six and six more, four to a line, by a comparer whose run before has
failed: two blocks of three differ. -/
theorem run_counts_after_failure :
    ∃ c, Comparer.ofStyle? ⟨4, 4, {}⟩ ⟨4, 4, []⟩ = .ok c ∧
      ((c.run [.data [1, 2], .failed .notFound] [] "").next.run (.ofBytes (utf8 "ABCDEF".toList))
        (.ofBytes (utf8 "ABCDEFGHIJKL".toList)) "").outcome = .ok ⟨3, 2, 6, 6, 12⟩ := by
  have hbuilt : ∃ c, Comparer.ofStyle? ⟨4, 4, {}⟩ ⟨4, 4, []⟩ = .ok c :=
    Comparer.exists_ofStyle?_iff.mpr (by decide)
  obtain ⟨c, hc⟩ := hbuilt
  obtain ⟨⟨blocks, differingBlocks, differingBytes, leftLength, rightLength⟩, -, hrun, hblocks,
      hleft, hright, hbytes, hdiffering, -⟩ :=
    run_counts (.ran (.built hc) [.data [1, 2], .failed .notFound] [] "")
      (utf8 "ABCDEF".toList) (utf8 "ABCDEFGHIJKL".toList)
  refine ⟨c, hc, ((hrun Outlet.losslessText "" trivial).1 (by decide)).trans ?_⟩
  dsimp only at hblocks hleft hright hbytes hdiffering
  rw [hblocks, hdiffering, hbytes, hleft, hright]
  decide +kernel

end HexDiff
