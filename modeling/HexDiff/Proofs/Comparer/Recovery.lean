import HexDiff.Proofs.Columns
import HexDiff.Proofs.Comparer.Shown

/-!
# What a report tells about the contents

A report leaves out the blocks that do not differ, and still loses nothing: together with one of the
two contents it determines the other.

The blocks of two reports are compared one after the other.  If a block differs in both, its lines
tell the windows and end where they do, and what follows them is again a report on the blocks behind
(`blockTexts`).  It cannot differ in only one of them: where it does, there are dots or its own
offset is next, and in the other report a later offset is next, or nothing.  So equal reports show
the same at each block (`SameShown`), in particular nothing at the same blocks, and there each
content has the window of its counterpart.
-/

namespace HexDiff

/-! ### The texts for several blocks -/

/-- The texts for `m` blocks from block `k` on. -/
def blockTexts (layout : Layout) (style : LineStyle) (left right : List UInt8) (k m : Nat) :
    List Char :=
  (List.range' k m).flatMap (blockText layout style left right)

variable {layout : Layout} {style : LineStyle} {left right left' right' : List UInt8} {k m : Nat}

/-- The first of the texts, and the others. -/
theorem blockTexts_succ :
    blockTexts layout style left right k (m + 1) =
      blockText layout style left right k ++ blockTexts layout style left right (k + 1) m := by
  rw [blockTexts, List.range'_succ, List.flatMap_cons, blockTexts]

/-- Blocks behind the last one have no text. -/
theorem blockTexts_eq_nil (hpos : 1 ≤ layout.lineLength)
    (h : blockCount layout.lineLength left right ≤ k) :
    blockTexts layout style left right k m = [] := by
  refine List.flatMap_eq_nil_iff.mpr fun j hj => blockText_eq_nil_iff.mpr fun hdiffers => ?_
  have hlt := hdiffers.lt hpos
  have hle := (List.mem_range'_1.mp hj).1
  omega

/-- The report is the text for all blocks, and as many more as one likes. -/
theorem reportText_eq_blockTexts (hpos : 1 ≤ layout.lineLength)
    (h : blockCount layout.lineLength left right ≤ m) :
    reportText layout style left right = blockTexts layout style left right 0 m := by
  have hbehind : blockTexts layout style left right (blockCount layout.lineLength left right)
      (m - blockCount layout.lineLength left right) = [] := blockTexts_eq_nil hpos le_rfl
  obtain ⟨extra, rfl⟩ := Nat.exists_eq_add_of_le h
  rw [Nat.add_sub_cancel_left] at hbehind
  rw [blockTexts, ← List.range'_append_1, List.flatMap_append, Nat.zero_add]
  unfold blockTexts at hbehind
  rw [hbehind, List.append_nil, reportText, List.range_eq_range']

/-- The text for a block that differs: a separator, and its two lines, under flags for each
position. -/
theorem exists_blockText_append (style : LineStyle)
    (h : BlockDiffers layout.lineLength left right k) :
    ∃ flags : List Bool, flags.length = layout.lineLength ∧ ∀ rest : List Char,
      blockText layout style left right k ++ rest =
        connectorText layout left right k ++ '\n' ::
          (style.line (k * layout.lineLength) (window layout.lineLength left k) flags ++ '\n' ::
            (style.line (k * layout.lineLength) (window layout.lineLength right k) flags ++
              '\n' :: rest)) := by
  refine ⟨_, Mask.length_flagsOf layout.lineLength (window layout.lineLength left k)
    (window layout.lineLength right k), fun rest => ?_⟩
  rw [blockText_of_blockDiffers h, ShownBlock.text, ShownBlock.lines]
  simp only [unlines_cons, List.append_assoc, List.cons_append]
  rfl

/-- What the texts begin with if the block before them does not differ: with the offset of one of
their blocks, if they are not empty. -/
theorem blockTexts_of_not_blockDiffers (style : LineStyle)
    (h : 0 < k → ¬BlockDiffers layout.lineLength left right (k - 1)) :
    blockTexts layout style left right k m = [] ∨
      ∃ j rest, k ≤ j ∧ blockTexts layout style left right k m =
        '\n' :: (Hex.padded style.offsetWidth (j * layout.lineLength) ++ ':' :: rest) := by
  induction m generalizing k with
  | zero => exact Or.inl rfl
  | succ m ih =>
    rw [blockTexts_succ]
    by_cases hdiffers : BlockDiffers layout.lineLength left right k
    · obtain ⟨flags, -, htext⟩ := exists_blockText_append style hdiffers
      have hconnector : connectorText layout left right k = [] :=
        if_neg fun hboth => h hboth.1 hboth.2
      obtain ⟨tail, hline⟩ := style.exists_line_eq (k * layout.lineLength)
        (window layout.lineLength left k) flags
      rw [htext, hconnector, List.nil_append, hline, List.append_assoc, List.cons_append]
      exact Or.inr ⟨k, _, le_rfl, rfl⟩
    · rw [blockText_eq_nil_iff.mpr hdiffers, List.nil_append]
      rcases ih (k := k + 1) (fun _ => hdiffers) with hnil | ⟨j, rest, hj, htext⟩
      · exact Or.inl hnil
      · exact Or.inr ⟨j, rest, by omega, htext⟩

/-! ### Equal texts -/

/-- Two comparisons show the same at block `k`: it differs in both or in neither, and if it differs,
the windows of the one are those of the other. -/
def SameShown (lineLength : Nat) (left right left' right' : List UInt8) (k : Nat) : Prop :=
  (BlockDiffers lineLength left right k ↔ BlockDiffers lineLength left' right' k) ∧
    (BlockDiffers lineLength left right k →
      window lineLength left k = window lineLength left' k ∧
        window lineLength right k = window lineLength right' k)

/-- A block that differs shows: no texts without it are equal to those with it. -/
theorem blockTexts_ne_of_blockDiffers (hvalid : layout.Valid)
    (h : ¬BlockDiffers layout.lineLength left right k)
    (h' : BlockDiffers layout.lineLength left' right' k) :
    blockTexts layout style left right k (m + 1) ≠
      blockTexts layout style left' right' k (m + 1) := by
  intro heq
  obtain ⟨flags, -, htext⟩ := exists_blockText_append style h'
  obtain ⟨tail, hline⟩ := style.exists_line_eq (k * layout.lineLength)
    (window layout.lineLength left' k) flags
  rw [blockTexts_succ, blockText_eq_nil_iff.mpr h, List.nil_append, blockTexts_succ, htext,
    hline, List.append_assoc, List.cons_append] at heq
  rcases blockTexts_of_not_blockDiffers (k := k + 1) (m := m) style (fun _ => h) with
    hnil | ⟨j, rest, hj, hnext⟩
  · rw [hnil] at heq
    exact absurd heq (by simp)
  · rw [hnext, connectorText] at heq
    split at heq
    · -- the dots of the one meet the line break of the other
      obtain ⟨w, hw⟩ := Nat.exists_eq_add_of_le' hvalid.2.1
      rw [hw, List.replicate_succ, List.cons_append, List.cons.injEq] at heq
      exact absurd heq.1 (by decide)
    · -- both go on with an offset, and the other one is too far
      rw [List.nil_append] at heq
      have hoffset := Hex.padded_append_inj (c := ':') (by decide) (List.cons.inj heq).2
      have hblock := Nat.eq_of_mul_eq_mul_right hvalid.1 hoffset
      omega

/-- If texts are equal from a block on, and the same blocks differ just before it, then the same is
shown at this block, and the texts behind it are equal too. -/
theorem sameShown_of_blockTexts_succ (hvalid : layout.Valid)
    (hbefore : 0 < k → (BlockDiffers layout.lineLength left right (k - 1) ↔
      BlockDiffers layout.lineLength left' right' (k - 1)))
    (h : blockTexts layout style left right k (m + 1) =
      blockTexts layout style left' right' k (m + 1)) :
    SameShown layout.lineLength left right left' right' k ∧
      blockTexts layout style left right (k + 1) m =
        blockTexts layout style left' right' (k + 1) m := by
  by_cases hdiffers : BlockDiffers layout.lineLength left right k <;>
    by_cases hdiffers' : BlockDiffers layout.lineLength left' right' k
  · obtain ⟨flags, hflags, htext⟩ := exists_blockText_append style hdiffers
    obtain ⟨flags', hflags', htext'⟩ := exists_blockText_append style hdiffers'
    have hconnector : connectorText layout left right k = connectorText layout left' right' k := by
      have hiff := and_congr_right hbefore
      simp only [connectorText, hiff]
    have hfit : ∀ bytes, (window layout.lineLength bytes k).length ≤ layout.lineLength :=
      fun bytes => length_window_le _ _ _
    have hsame := hflags.trans hflags'.symm
    rw [blockTexts_succ, blockTexts_succ, htext, htext', hconnector] at h
    have h := (List.cons.inj (List.append_cancel_left h)).2
    obtain ⟨-, hleft, h⟩ :=
      LineStyle.line_append_inj hsame ((hfit _).trans_eq hflags.symm)
        ((hfit _).trans_eq hflags'.symm) h
    have h := (List.cons.inj h).2
    obtain ⟨-, hright, h⟩ :=
      LineStyle.line_append_inj hsame ((hfit _).trans_eq hflags.symm)
        ((hfit _).trans_eq hflags'.symm) h
    have h := (List.cons.inj h).2
    exact ⟨⟨iff_of_true hdiffers hdiffers', fun _ => ⟨hleft, hright⟩⟩, h⟩
  · exact absurd h.symm (blockTexts_ne_of_blockDiffers hvalid hdiffers' hdiffers)
  · exact absurd h (blockTexts_ne_of_blockDiffers hvalid hdiffers hdiffers')
  · rw [blockTexts_succ, blockTexts_succ, blockText_eq_nil_iff.mpr hdiffers,
      blockText_eq_nil_iff.mpr hdiffers', List.nil_append, List.nil_append] at h
    exact ⟨⟨iff_of_false hdiffers hdiffers', fun hk => absurd hk hdiffers⟩, h⟩

/-- If texts are equal from a block on, the same is shown at all of their blocks. -/
theorem sameShown_of_blockTexts (hvalid : layout.Valid)
    (hbefore : 0 < k → (BlockDiffers layout.lineLength left right (k - 1) ↔
      BlockDiffers layout.lineLength left' right' (k - 1)))
    (h : blockTexts layout style left right k m = blockTexts layout style left' right' k m) :
    ∀ j, k ≤ j → j < k + m → SameShown layout.lineLength left right left' right' j := by
  -- the separator of a block depends on the block before it, so the induction carries that one
  -- along
  induction m generalizing k with
  | zero =>
    intro j hj hlt
    omega
  | succ m ih =>
    obtain ⟨hshown, hrest⟩ := sameShown_of_blockTexts_succ hvalid hbefore h
    intro j hj hlt
    rcases Nat.eq_or_lt_of_le hj with rfl | hj
    · exact hshown
    · exact ih (k := k + 1) (fun _ => hshown.1) hrest j hj (by omega)

/-- Equal reports show the same at all blocks. -/
theorem sameShown_of_reportText (hvalid : layout.Valid)
    (h : reportText layout style left right = reportText layout style left' right') (k : Nat) :
    SameShown layout.lineLength left right left' right' k := by
  let m := max (k + 1) (max (blockCount layout.lineLength left right)
    (blockCount layout.lineLength left' right'))
  have hle : blockCount layout.lineLength left right ≤ m := by omega
  have hle' : blockCount layout.lineLength left' right' ≤ m := by omega
  rw [reportText_eq_blockTexts hvalid.1 hle, reportText_eq_blockTexts hvalid.1 hle'] at h
  exact sameShown_of_blockTexts hvalid (fun hzero => absurd hzero (lt_irrefl 0)) h k
    (Nat.zero_le k) (by omega)

/-! ### One content and the report determine the other -/

/-- Contents with the same windows are equal. -/
theorem eq_of_window_eq {lineLength : Nat} (h : 1 ≤ lineLength) {bytes bytes' : List UInt8}
    (hall : ∀ k, window lineLength bytes k = window lineLength bytes' k) : bytes = bytes' := by
  refine List.ext_getElem? fun i => ?_
  have hmod := Nat.mod_lt i h
  have hwindow := congrArg (·[i % lineLength]?) (hall (i / lineLength))
  rwa [getElem?_window _ _ hmod, getElem?_window _ _ hmod, Nat.div_add_mod'] at hwindow

/-- Where the same is shown and the left windows are the same, so are the right ones. -/
theorem SameShown.window_right {lineLength : Nat} {right right' : List UInt8}
    (h : SameShown lineLength left right left right' k) :
    window lineLength right k = window lineLength right' k := by
  by_cases hdiffers : BlockDiffers lineLength left right k
  · exact (h.2 hdiffers).2
  · have hdiffers' : ¬BlockDiffers lineLength left right' k := fun hk => hdiffers (h.1.mpr hk)
    exact (not_not.mp hdiffers).symm.trans (not_not.mp hdiffers')

/-- Where the same is shown and the right windows are the same, so are the left ones. -/
theorem SameShown.window_left {lineLength : Nat} {left left' : List UInt8}
    (h : SameShown lineLength left right left' right k) :
    window lineLength left k = window lineLength left' k := by
  by_cases hdiffers : BlockDiffers lineLength left right k
  · exact (h.2 hdiffers).1
  · have hdiffers' : ¬BlockDiffers lineLength left' right k := fun hk => hdiffers (h.1.mpr hk)
    exact (not_not.mp hdiffers).trans (not_not.mp hdiffers').symm

/-- Equal texts are equal reports. -/
theorem reportText_eq_of_diffText (hvalid : layout.Valid)
    (h : diffText layout left right = diffText layout left' right') :
    reportText layout (.ofLayout layout) left right =
      reportText layout (.ofLayout layout) left' right' := by
  rw [diffText_of_valid hvalid, diffText_of_valid hvalid, Except.ok.injEq] at h
  exact String.ofList_injective h

/-- **A report loses nothing.**  With a valid layout, one content and the report on it and another
content determine the other content, its length included. -/
theorem diffText_injective {layout : Layout} (hvalid : layout.Valid) :
    (∀ left right right' : List UInt8,
        diffText layout left right = diffText layout left right' → right = right') ∧
      ∀ right left left' : List UInt8,
        diffText layout left right = diffText layout left' right → left = left' := by
  constructor
  · intro left right right' h
    have hreport := reportText_eq_of_diffText hvalid h
    exact eq_of_window_eq hvalid.1 fun k => (sameShown_of_reportText hvalid hreport k).window_right
  · intro right left left' h
    have hreport := reportText_eq_of_diffText hvalid h
    exact eq_of_window_eq hvalid.1 fun k => (sameShown_of_reportText hvalid hreport k).window_left

/-- Three bytes against four others, and the text on them, which gives the four others back. -/
theorem diffText_injective_short :
    (⟨2, 4, { ascii := true }⟩ : Layout).Valid ∧
      diffText ⟨2, 4, { ascii := true }⟩ (utf8 "ABC".toList) (utf8 "AXCD".toList) =
        .ok ("\n0000:   41(42)  AB\n0000:   41(58)  AX\n" ++
          "....\n0002:   43(--)  C\n0002:   43(44)  CD\n") ∧
      utf8 "AXCD".toList = [65, 88, 67, 68] := by
  have hvalid : (⟨2, 4, { ascii := true }⟩ : Layout).Valid := by decide
  exact ⟨hvalid, by decide +kernel,
    (diffText_injective hvalid).1 (utf8 "ABC".toList) _ [65, 88, 67, 68] (by decide +kernel)⟩

end HexDiff
