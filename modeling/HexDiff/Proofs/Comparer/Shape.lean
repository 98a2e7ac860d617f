import HexDiff.Comparer
import HexDiff.Proofs.Delivery
import HexDiff.Proofs.Marking

/-!
# Comparers before and after a run

A comparer is used for one run after another, and a run leaves its windows, its mask and its line as
they were for the last block.  What stays is the shape: the layout, the style, and the sizes of the
windows and of the mask (`Comparer.SameShape`).

`Comparer.Reachable` says that a comparer comes from a constructor, possibly by way of some runs.
Whatever these runs were and however they ended, such a comparer fits its layout
(`Comparer.Reachable.fits`): the windows, the mask and the style all have the line length of the
layout, which is valid.
-/

namespace HexDiff

/-- The comparer that a step leaves. -/
def Step.next : Step → Comparer
  | .finished next => next
  | .failed _ next => next
  | .compared _ next _ _ => next

namespace Comparer

/-! ### One step -/

/-- The comparer with some bytes in front of what its windows held. -/
def load (c : Comparer) (lft rgt : List UInt8) : Comparer :=
  { c with
    left := lft ++ c.left.drop lft.length
    right := rgt ++ c.right.drop rgt.length }

/-- The comparer after it has compared two windows. -/
def compare (c : Comparer) (lft rgt : List UInt8) : Comparer :=
  { c.load lft rgt with mask := c.mask.mark lft rgt }

/-- What a step comes to, once it is known how the two windows were filled.  The left stream is
filled from first, and a fault there leaves the right window alone. -/
def react (c : Comparer) (left right : Filling) : Step :=
  match left.fault, right.fault with
  | some fault, _ => .failed fault (c.load left.taken [])
  | none, some fault => .failed fault (c.load left.taken right.taken)
  | none, none =>
    if left.taken = [] ∧ right.taken = [] then .finished c
    else
      .compared ⟨left.taken, right.taken, c.mask.mark left.taken right.taken⟩
        (c.compare left.taken right.taken) left.rest right.rest

/-- Two empty windows end the comparison. -/
theorem react_nil (c : Comparer) (left right : Source) :
    c.react ⟨[], none, left⟩ ⟨[], none, right⟩ = .finished c := rfl

/-- Two windows one of which is not empty make a block. -/
theorem react_of_ne (c : Comparer) {lft rgt : List UInt8} (left right : Source)
    (h : ¬(lft = [] ∧ rgt = [])) :
    c.react ⟨lft, none, left⟩ ⟨rgt, none, right⟩ =
      .compared ⟨lft, rgt, c.mask.mark lft rgt⟩ (c.compare lft rgt) left right :=
  if_neg h

/-- All that a step can do. -/
theorem step_eq_react (c : Comparer) (left right : Source) :
    c.step left right = c.react (left.fill c.left.length) (right.fill c.right.length) := by
  simp only [step, react, Source.readBlock, List.take_left', List.length_eq_zero_iff]
  cases (left.fill c.left.length).fault with
  | some fault => rfl
  | none =>
    cases (right.fill c.right.length).fault with
    | some fault => rfl
    | none =>
      by_cases hempty :
          (left.fill c.left.length).taken = [] ∧ (right.fill c.right.length).taken = []
      · simp [hempty]
      · simp only [hempty, if_false]
        rfl

/-- A step that ends the comparison got nothing into either window. -/
theorem taken_of_step_eq_finished {c next : Comparer} {left right : Source}
    (h : c.step left right = .finished next) :
    (left.fill c.left.length).taken = [] ∧ (right.fill c.right.length).taken = [] := by
  rw [step_eq_react, react] at h
  split at h
  · cases h
  · cases h
  · split at h
    · assumption
    · cases h

/-- The left stream has not failed in such a step. -/
theorem fault_of_step_eq_finished {c next : Comparer} {left right : Source}
    (h : c.step left right = .finished next) : (left.fill c.left.length).fault = none := by
  rw [step_eq_react, react] at h
  split at h
  · cases h
  · cases h
  · assumption

/-- Neither stream has failed in one that compares a block. -/
theorem fault_of_step_eq_compared {c next : Comparer} {left right left' right' : Source}
    {block : Block} (h : c.step left right = .compared block next left' right') :
    (left.fill c.left.length).fault = none ∧ (right.fill c.right.length).fault = none := by
  rw [step_eq_react, react] at h
  split at h
  · cases h
  · cases h
  · exact ⟨‹_›, ‹_›⟩

/-- The mask of a block is marked for its windows. -/
theorem mask_of_step_eq_compared {c next : Comparer} {left right left' right' : Source}
    {block : Block} (h : c.step left right = .compared block next left' right') :
    block.mask = c.mask.mark block.left block.right := by
  rw [step_eq_react, react] at h
  split at h
  · cases h
  · cases h
  · split at h
    · cases h
    · cases h
      rfl

/-- The windows of a block are what a step got into them. -/
theorem taken_of_step_eq_compared {c next : Comparer} {left right left' right' : Source}
    {block : Block} (h : c.step left right = .compared block next left' right') :
    (left.fill c.left.length).taken = block.left ∧
      (right.fill c.right.length).taken = block.right := by
  rw [step_eq_react, react] at h
  split at h
  · cases h
  · cases h
  · split at h
    · cases h
    · cases h
      exact ⟨rfl, rfl⟩

/-! ### Shapes -/

/-- Two comparers that differ at most in what their windows, masks and lines hold. -/
structure SameShape (c d : Comparer) : Prop where
  layout : d.layout = c.layout
  style : d.style = c.style
  length_left : d.left.length = c.left.length
  length_right : d.right.length = c.right.length
  capacity_mask : d.mask.capacity = c.mask.capacity

namespace SameShape

variable {c d e : Comparer}

/-- A comparer has its own shape. -/
theorem refl (c : Comparer) : c.SameShape c :=
  ⟨rfl, rfl, rfl, rfl, rfl⟩

/-- The shape stays over two changes. -/
theorem trans (h : c.SameShape d) (h' : d.SameShape e) : c.SameShape e where
  layout := h'.layout.trans h.layout
  style := h'.style.trans h.style
  length_left := h'.length_left.trans h.length_left
  length_right := h'.length_right.trans h.length_right
  capacity_mask := h'.capacity_mask.trans h.capacity_mask

/-- Loading no more than the windows hold keeps the shape. -/
theorem load {lft rgt : List UInt8} (hlft : lft.length ≤ c.left.length)
    (hrgt : rgt.length ≤ c.right.length) : c.SameShape (c.load lft rgt) where
  layout := rfl
  style := rfl
  length_left := by simp only [Comparer.load, List.length_append, List.length_drop]; omega
  length_right := by simp only [Comparer.load, List.length_append, List.length_drop]; omega
  capacity_mask := rfl

/-- Comparing windows that are no longer than before keeps the shape. -/
theorem compare {lft rgt : List UInt8} (hlft : lft.length ≤ c.left.length)
    (hrgt : rgt.length ≤ c.right.length) : c.SameShape (c.compare lft rgt) :=
  { load hlft hrgt with capacity_mask := Mask.capacity_mark c.mask lft rgt }

end SameShape

/-! ### What reporting a block leaves -/

/-- The comparer with another line. -/
def reline (c : Comparer) (line : String) : Comparer :=
  { c with line }

section Settling

variable {σ : Type} [Outlet σ] {c : Comparer} {p : Progress} {block : Block} {output : σ}
  {log : Array LogEntry}

/-- A line that is begun again holds what separates two blocks, and nothing of what it held. -/
theorem separate_eq (c : Comparer) (p : Progress) :
    c.separate p = c.reline (String.ofList
      ((if p.afterDifference then c.connector else []) ++ ['\n'])) := by
  unfold separate
  dsimp only
  split
  · simp only [reline, String.empty_append, String.push_eq_append, String.ofList_append]
    rfl
  · rfl

/-- If a run goes on behind a block, the report has changed nothing but the line. -/
theorem exists_reline_of_settle_ok {next : Comparer} {output' : σ} {log' : Array LogEntry}
    (h : c.settle p block output log = .ok (next, output', log')) :
    ∃ line, next = c.reline line := by
  unfold settle at h
  rw [separate_eq] at h
  split at h
  · dsimp only at h
    split at h
    · cases h
    · split at h
      · cases h
        exact ⟨_, rfl⟩
      · cases h
  · cases h
    exact ⟨c.line, rfl⟩

/-- If a run ends with the report on a block, it is the same. -/
theorem exists_reline_of_settle_error {result : RunResult σ}
    (h : c.settle p block output log = .error result) :
    ∃ line, result.next = c.reline line := by
  unfold settle at h
  rw [separate_eq] at h
  split at h
  · dsimp only at h
    split at h
    · cases h
      exact ⟨_, rfl⟩
    · split at h
      · cases h
      · cases h
        exact ⟨_, rfl⟩
  · cases h

/-- Such a run has not come to its end: the output has failed, or there was no column. -/
theorem outcome_of_settle_error {result : RunResult σ}
    (h : c.settle p block output log = .error result) :
    (∃ fault, result.outcome = .error (.fault fault)) ∨
      ∃ e, result.outcome = .error (.overwide e) := by
  unfold settle at h
  split at h
  · dsimp only at h
    split at h
    · cases h
      exact Or.inr ⟨_, rfl⟩
    · split at h
      · cases h
      · cases h
        exact Or.inl ⟨_, rfl⟩
  · cases h

/-- A run comes to its end where neither stream has anything left. -/
theorem step_of_turn_ended_ok {left right : Source} {result : RunResult σ} {stats : Stats}
    (h : c.turn p left right output log = .ended result) (hok : result.outcome = .ok stats) :
    c.step left right = .finished result.next ∧ stats = p.stats ∧ result.output = output := by
  unfold turn at h
  split at h
  · next hstep =>
    cases h
    cases hok
    exact ⟨hstep, rfl, rfl⟩
  · cases h
    cases hok
  · split at h
    · next hsettle =>
      cases h
      rcases outcome_of_settle_error hsettle with ⟨e, he⟩ | ⟨e, he⟩ <;> cases he.symm.trans hok
    · cases h

end Settling

/-! ### What steps and runs leave -/

/-- Another line does not change the shape. -/
theorem SameShape.reline (c : Comparer) (line : String) : c.SameShape (c.reline line) :=
  ⟨rfl, rfl, rfl, rfl, rfl⟩

/-- A step keeps the shape. -/
theorem sameShape_step (c : Comparer) (left right : Source) :
    c.SameShape (c.step left right).next := by
  have hleft := left.length_taken_fill_le c.left.length
  have hright := right.length_taken_fill_le c.right.length
  rw [step_eq_react, react]
  split
  · exact .load hleft (Nat.zero_le _)
  · exact .load hleft hright
  · split
    · exact .refl c
    · exact .compare hleft hright

/-- Comparing a block keeps the shape. -/
theorem sameShape_of_step {c next : Comparer} {left right left' right' : Source} {block : Block}
    (h : c.step left right = .compared block next left' right') : c.SameShape next := by
  have hstep := c.sameShape_step left right
  rwa [h] at hstep

section Turns

variable {σ : Type} [Outlet σ] {c next : Comparer} {p p' : Progress}
  {left right left' right' : Source} {output output' : σ} {log log' : Array LogEntry}

/-- A block after which a run goes on keeps the shape. -/
theorem sameShape_of_turn_goesOn
    (h : c.turn p left right output log = .goesOn next p' left' right' output' log') :
    c.SameShape next := by
  obtain ⟨block, compared, hstep, -, hsettle⟩ := exists_step_of_turn h
  obtain ⟨line, rfl⟩ := exists_reline_of_settle_ok hsettle
  exact (sameShape_of_step hstep).trans (.reline compared line)

/-- So does a block in which a run ends. -/
theorem sameShape_of_turn_ended {result : RunResult σ}
    (h : c.turn p left right output log = .ended result) : c.SameShape result.next := by
  have hstep := c.sameShape_step left right
  unfold turn at h
  split at h
  · next compared hnext =>
    cases h
    rwa [hnext] at hstep
  · next fault compared hnext =>
    cases h
    rwa [hnext] at hstep
  · next block compared _ _ hnext =>
    rw [hnext] at hstep
    split at h
    · next hsettle =>
      cases h
      obtain ⟨line, hline⟩ := exists_reline_of_settle_error hsettle
      rw [hline]
      exact hstep.trans (.reline compared line)
    · cases h

end Turns

/-- A run keeps the shape, whatever it is written to and however it ends. -/
theorem sameShape_runFrom {σ : Type} [Outlet σ] (c : Comparer) (p : Progress)
    (left right : Source) (output : σ) (log : Array LogEntry) :
    c.SameShape (c.runFrom p left right output log).next := by
  fun_induction runFrom c p left right output log with
  | case1 c p left right output log result hturn => exact sameShape_of_turn_ended hturn
  | case2 c p left right output log next p' left' right' output' log' hturn ih =>
    exact (sameShape_of_turn_goesOn hturn).trans ih

/-! ### Reachable comparers -/

/-- The comparers that come from a constructor, possibly by way of some runs. -/
inductive Reachable (layout : Layout) (style : LineStyle) : Comparer → Prop
  | built {c : Comparer} (h : ofStyle? layout style = .ok c) : Reachable layout style c
  | ran {c : Comparer} {σ : Type} [Outlet σ] (h : Reachable layout style c)
    (left right : Source) (output : σ) : Reachable layout style (c.run left right output).next

/-- A comparer whose windows, mask and style have the line length of its layout, a valid one. -/
structure Fits (layout : Layout) (style : LineStyle) (c : Comparer) : Prop where
  layout_eq : c.layout = layout
  style_eq : c.style = style
  valid : layout.Valid
  capacity_style : style.capacity = layout.lineLength
  length_left : c.left.length = layout.lineLength
  length_right : c.right.length = layout.lineLength
  capacity_mask : c.mask.capacity = layout.lineLength

variable {layout : Layout} {style : LineStyle} {c d : Comparer}

/-- Comparers of one shape fit the same layout and style. -/
theorem Fits.of_sameShape (h : Fits layout style c) (hcd : c.SameShape d) :
    Fits layout style d where
  layout_eq := hcd.layout.trans h.layout_eq
  style_eq := hcd.style.trans h.style_eq
  valid := h.valid
  capacity_style := h.capacity_style
  length_left := hcd.length_left.trans h.length_left
  length_right := hcd.length_right.trans h.length_right
  capacity_mask := hcd.capacity_mask.trans h.capacity_mask

/-- What the constructor accepts, and what it makes of it. -/
theorem ofStyle?_eq_ok_iff :
    ofStyle? layout style = .ok c ↔
      layout.Valid ∧ style.capacity = layout.lineLength ∧
        c = ⟨layout, style, List.replicate layout.lineLength 0,
          List.replicate layout.lineLength 0, .clear layout.lineLength, ""⟩ := by
  rw [← layout.check_eq_ok_iff, ofStyle?]
  cases layout.check with
  | error e => simp
  | ok _ =>
    by_cases hcapacity : style.capacity = layout.lineLength
    · simp [hcapacity, eq_comm]
    · simp [hcapacity]

/-- A comparer fits as it is built. -/
theorem fits_of_ofStyle? (h : ofStyle? layout style = .ok c) : Fits layout style c := by
  obtain ⟨hvalid, hcapacity, rfl⟩ := ofStyle?_eq_ok_iff.mp h
  exact
    { layout_eq := rfl
      style_eq := rfl
      valid := hvalid
      capacity_style := hcapacity
      length_left := List.length_replicate
      length_right := List.length_replicate
      capacity_mask := List.length_replicate }

/-- Whatever a comparer has been through, it fits. -/
theorem Reachable.fits (h : Reachable layout style c) : Fits layout style c := by
  induction h with
  | built h => exact fits_of_ofStyle? h
  | ran _ left right output ih => exact ih.of_sameShape (sameShape_runFrom _ _ left right output _)

end Comparer
end HexDiff
