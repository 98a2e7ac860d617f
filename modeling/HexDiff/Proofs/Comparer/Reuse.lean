import HexDiff.Proofs.Comparer.Course

/-!
# Comparers that are used again

A run leaves a comparer with windows and a mask that still hold what they held for its last block,
or for the part of a block that it got before a fault, and with the piece of the report on the last
block that differed in its line, written or not.  None of this is ever seen again: a window is filled
before it is looked at, and only as far as it is filled, a mask is marked anew, and a line is cleared
before anything is put into it.  All that counts about a comparer is its shape.

So comparers of one shape meet the same on the same streams (`Comparer.course_alike`), report a
block in the same way (`Comparer.settle_alike`), and end in the same way (`Course.Alike.replay`).
Since all comparers that come from one layout and one style have one shape, a comparer with any
history does what a new one does (`Comparer.run_eq_run_of_built`).
-/

namespace HexDiff

/-! ### What is alike -/

/-- Steps that do the same, and leave comparers of one shape. -/
inductive Step.Alike : Step → Step → Prop
  | finished {c d : Comparer} (h : c.SameShape d) : Alike (.finished c) (.finished d)
  | failed {fault : Fault} {c d : Comparer} (h : c.SameShape d) :
    Alike (.failed fault c) (.failed fault d)
  | compared {block : Block} {left right : Source} {c d : Comparer} (h : c.SameShape d) :
    Alike (.compared block c left right) (.compared block d left right)

/-- Courses that meet the same, with comparers of one shape on them. -/
inductive Course.Alike : Course → Course → Prop
  | finished {c d : Comparer} (h : c.SameShape d) : Alike (.finished c) (.finished d)
  | failed {fault : Fault} {c d : Comparer} (h : c.SameShape d) :
    Alike (.failed fault c) (.failed fault d)
  | compared {block : Block} {c d : Comparer} {more more' : Course} (h : c.SameShape d)
    (hmore : Alike more more') : Alike (.compared block c more) (.compared block d more')

/-- Results that tell the same, with comparers of one shape for the next run. -/
structure RunResult.Alike {σ : Type} (r s : RunResult σ) : Prop where
  outcome : r.outcome = s.outcome
  output : r.output = s.output
  log : r.log = s.log
  next : r.next.SameShape s.next

/-! ### Comparers of one shape do the same -/

namespace Comparer

variable {c d : Comparer}

/-- Loading the same keeps one shape. -/
theorem SameShape.load_load (h : c.SameShape d) (lft rgt : List UInt8) :
    (c.load lft rgt).SameShape (d.load lft rgt) where
  layout := h.layout
  style := h.style
  length_left := by
    simp only [Comparer.load, List.length_append, List.length_drop, h.length_left]
  length_right := by
    simp only [Comparer.load, List.length_append, List.length_drop, h.length_right]
  capacity_mask := h.capacity_mask

/-- Masks of one capacity are marked alike. -/
theorem SameShape.mark_eq (h : c.SameShape d) (lft rgt : List UInt8) :
    d.mask.mark lft rgt = c.mask.mark lft rgt := by
  rw [Mask.mark_eq, Mask.mark_eq, h.capacity_mask]

/-- Comparing the same keeps one shape. -/
theorem SameShape.compare_compare (h : c.SameShape d) (lft rgt : List UInt8) :
    (c.compare lft rgt).SameShape (d.compare lft rgt) :=
  { h.load_load lft rgt with capacity_mask := congrArg Mask.capacity (h.mark_eq lft rgt) }

/-- What a step does with its windows depends on the shape only. -/
theorem react_alike (h : c.SameShape d) (left right : Filling) :
    (c.react left right).Alike (d.react left right) := by
  unfold react
  rw [h.mark_eq]
  split
  · exact .failed (h.load_load _ _)
  · exact .failed (h.load_load _ _)
  · split
    · exact .finished h
    · exact .compared (h.compare_compare _ _)

/-- So does a step. -/
theorem step_alike (h : c.SameShape d) (left right : Source) :
    (c.step left right).Alike (d.step left right) := by
  rw [step_eq_react, step_eq_react, h.length_left, h.length_right]
  exact react_alike h _ _

/-- Comparers of one shape meet the same on the same streams. -/
theorem course_alike (h : c.SameShape d) (left right : Source) :
    (c.course left right).Alike (d.course left right) := by
  fun_induction course c left right generalizing d with
  | case1 c left right next hstep =>
    have halike := step_alike h left right
    rw [course_eq d]
    generalize d.step left right = step at halike ⊢
    rw [hstep] at halike
    cases halike with
    | finished hnext => exact .finished hnext
  | case2 c left right fault next hstep =>
    have halike := step_alike h left right
    rw [course_eq d]
    generalize d.step left right = step at halike ⊢
    rw [hstep] at halike
    cases halike with
    | failed hnext => exact .failed hnext
  | case3 c left right block next left' right' hstep ih =>
    have halike := step_alike h left right
    rw [course_eq d]
    generalize d.step left right = step at halike ⊢
    rw [hstep] at halike
    cases halike with
    | compared hnext => exact .compared hnext (ih hnext)

/-- Other lines keep one shape. -/
theorem SameShape.reline_reline (h : c.SameShape d) (line line' : String) :
    (c.reline line).SameShape (d.reline line') :=
  ⟨h.layout, h.style, h.length_left, h.length_right, h.capacity_mask⟩

/-- What a line holds when it is begun again depends on the shape only. -/
theorem SameShape.line_separate (h : c.SameShape d) (p : Progress) :
    (d.separate p).line = (c.separate p).line := by
  rw [separate_eq, separate_eq, connector, connector, h.layout]
  rfl

/-- Comparers of one shape report a block alike, whatever their lines held. -/
theorem settle_alike {σ : Type} [Outlet σ] (h : c.SameShape d) (p : Progress) (block : Block)
    (output : σ) (log : Array LogEntry) :
    (∃ r s, c.settle p block output log = .error r ∧ d.settle p block output log = .error s ∧
        r.Alike s) ∨
      ∃ next next' output' log', c.settle p block output log = .ok (next, output', log') ∧
        d.settle p block output log = .ok (next', output', log') ∧ next.SameShape next' := by
  unfold settle
  dsimp only
  rw [h.line_separate, h.style]
  split
  · rw [separate_eq, separate_eq]
    split
    · exact Or.inl ⟨_, _, rfl, rfl, rfl, rfl, rfl, h.reline_reline _ _⟩
    · split
      · exact Or.inr ⟨_, _, _, _, rfl, rfl, h.reline_reline _ _⟩
      · exact Or.inl ⟨_, _, rfl, rfl, rfl, rfl, rfl, h.reline_reline _ _⟩
  · exact Or.inr ⟨c, d, output, log, rfl, rfl, h⟩

end Comparer

/-- Courses that meet the same give the same results, from whatever lines on. -/
theorem Course.Alike.replay {σ : Type} [Outlet σ] {course course' : Course}
    (h : course.Alike course') (line line' : String) (p : Progress) (output : σ)
    (log : Array LogEntry) :
    (course.replay line p output log).Alike (course'.replay line' p output log) := by
  induction h generalizing line line' p output log with
  | finished hnext => exact ⟨rfl, rfl, rfl, hnext.reline_reline line line'⟩
  | failed hnext => exact ⟨rfl, rfl, rfl, hnext.reline_reline line line'⟩
  | @compared block c d more more' hnext hmore ih =>
    rw [Course.replay, Course.replay, hnext.layout]
    rcases Comparer.settle_alike (hnext.reline_reline line line') p block output log with
      ⟨r, s, hr, hs, halike⟩ | ⟨next, next', output', log', hr, hs, -⟩
    · rw [hr, hs]
      exact halike
    · rw [hr, hs]
      exact ih _ _ _ _ _

/-! ### Comparers with a history -/

namespace Comparer

variable {layout : Layout} {style : LineStyle} {c d : Comparer}

/-- Comparers that fit one layout and one style have one shape. -/
theorem Fits.sameShape (hc : Fits layout style c) (hd : Fits layout style d) : c.SameShape d where
  layout := hd.layout_eq.trans hc.layout_eq.symm
  style := hd.style_eq.trans hc.style_eq.symm
  length_left := hd.length_left.trans hc.length_left.symm
  length_right := hd.length_right.trans hc.length_right.symm
  capacity_mask := hd.capacity_mask.trans hc.capacity_mask.symm

/-- **A comparer has no memory.**  Take a comparer that has been used for any number of runs, on
any streams and outputs, whether they succeeded or failed in reading or in writing, and a new one
with the same layout and style.  A run of the one has the same result as a run of the other: the
same counters or the same fault, the same output, and the same log. -/
theorem run_eq_run_of_built (hc : Reachable layout style c) (hd : ofStyle? layout style = .ok d)
    (left right : Source) {σ : Type} [Outlet σ] (output : σ) :
    (c.run left right output).outcome = (d.run left right output).outcome ∧
      (c.run left right output).output = (d.run left right output).output ∧
      (c.run left right output).log = (d.run left right output).log := by
  have hshape : c.SameShape d := hc.fits.sameShape (fits_of_ofStyle? hd)
  have halike := (course_alike hshape left right).replay c.line d.line {} output #[]
  rw [run, run, runFrom_eq_replay, runFrom_eq_replay]
  exact ⟨halike.outcome, halike.output, halike.log⟩

/-- Three runs of one comparer: the first fails in reading, with a part of a block in the left
window, the second in writing, and the third has the result that it would have had without them.
-/
theorem run_eq_run_of_built_third :
    ∃ c, ofStyle? ⟨4, 4, {}⟩ ⟨4, 4, []⟩ = .ok c ∧
      let second := (c.run [.data [1, 2, 3], .failed .notFound] [.data [4]] "").next
      let third :=
        (second.run (.ofBytes [5, 6, 7, 8, 9]) (.ofBytes [5]) ({ room := some 9 } : Sink)).next
      (third.run (.ofBytes [1]) (.ofBytes [1, 2]) "").outcome =
          (c.run (.ofBytes [1]) (.ofBytes [1, 2]) "").outcome ∧
        (third.run (.ofBytes [1]) (.ofBytes [1, 2]) "").output =
          (c.run (.ofBytes [1]) (.ofBytes [1, 2]) "").output ∧
        (third.run (.ofBytes [1]) (.ofBytes [1, 2]) "").log =
          (c.run (.ofBytes [1]) (.ofBytes [1, 2]) "").log := by
  have hbuilt : ∃ c, ofStyle? ⟨4, 4, {}⟩ ⟨4, 4, []⟩ = .ok c := ⟨_, rfl⟩
  obtain ⟨c, hc⟩ := hbuilt
  have hthird : Reachable ⟨4, 4, {}⟩ ⟨4, 4, []⟩ _ :=
    .ran (.ran (.built hc) [.data [1, 2, 3], .failed .notFound] [.data [4]] "")
      (.ofBytes [5, 6, 7, 8, 9]) (.ofBytes [5]) ({ room := some 9 } : Sink)
  exact ⟨c, hc, run_eq_run_of_built hthird hc (.ofBytes [1]) (.ofBytes [1, 2]) ""⟩

end Comparer
end HexDiff
