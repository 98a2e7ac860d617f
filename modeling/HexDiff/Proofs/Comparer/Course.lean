import HexDiff.Proofs.Comparer.Settling
import HexDiff.Proofs.Writing

/-!
# Reading apart from writing

A run reads blocks and writes reports, one by the other.  What it reads does not depend on what it
writes to.  The `Course` of a comparer on two streams is all that it would read from them if every
write went through.  The line is the only part of a comparer that writing touches and reading does
not, so a run is the course replayed on an output and on a line (`Comparer.runFrom_eq_replay`).

So two runs with the same course have the same result on the same output, and the result of a run is
known from the blocks of its course and the fault that it meets, if any: the run writes the reports
of the blocks as far as the output takes them (`Comparer.output_run`), and if it takes them all, the
run ends in that fault or in the counters of the blocks (`Comparer.outcome_run`).  A run whose style
has no column for its offsets writes nothing, and breaks off at the first block that differs.
-/

namespace HexDiff

/-- What a comparer meets on two streams, block by block, and the comparer after each of them. -/
inductive Course where
  | finished (next : Comparer)
  | failed (fault : Fault) (next : Comparer)
  | compared (block : Block) (next : Comparer) (more : Course)

/-- Everything that a comparer reads from two streams. -/
def Comparer.course (c : Comparer) (left right : Source) : Course :=
  match _h : c.step left right with
  | .finished next => .finished next
  | .failed fault next => .failed fault next
  | .compared block next left' right' => .compared block next (next.course left' right')
termination_by left.byteCount + right.byteCount
decreasing_by exact byteCount_lt_of_step _h

/-! ### Replaying -/

namespace Course

/-- The rest of a run along a course, from a line on that holds some text. -/
def replay {σ : Type} [Outlet σ] :
    Course → String → Progress → σ → Array LogEntry → RunResult σ
  | finished next, line, p, output, log =>
    ⟨.ok p.stats, output, log.push (.diffComplete p.stats), next.reline line⟩
  | failed fault next, line, _, output, log =>
    ⟨.error (.fault fault), output, log, next.reline line⟩
  | compared block next more, line, p, output, log =>
    match (next.reline line).settle p block output log with
    | .error result => result
    | .ok (next', output', log') =>
      more.replay next'.line (p.advance next.layout.lineLength block) output' log'

/-- The blocks of a course. -/
def blocks : Course → List Block
  | finished _ => []
  | failed _ _ => []
  | compared block _ more => block :: more.blocks

/-- The fault that a course ends in, if it does. -/
def fault : Course → Option Fault
  | finished _ => none
  | failed fault _ => some fault
  | compared _ _ more => more.fault

/-- The course with another line in all its comparers. -/
def reline (line : String) : Course → Course
  | finished next => finished (next.reline line)
  | failed fault next => failed fault (next.reline line)
  | compared block next more => compared block (next.reline line) (more.reline line)

/-- The blocks are the same. -/
theorem blocks_reline (line : String) (course : Course) :
    (course.reline line).blocks = course.blocks := by
  induction course with
  | finished next => rfl
  | failed fault next => rfl
  | compared block next more ih => rw [reline, blocks, blocks, ih]

/-- A course is replayed on one line, whatever the lines of its comparers held. -/
theorem replay_reline {σ : Type} [Outlet σ] (held : String) (course : Course) (line : String)
    (p : Progress) (output : σ) (log : Array LogEntry) :
    (course.reline held).replay line p output log = course.replay line p output log := by
  induction course generalizing line p output log with
  | finished next => rfl
  | failed fault next => rfl
  | compared block next more ih =>
    simp only [reline, replay, ih]
    rfl

end Course

namespace Comparer

/-- One step of a course.  The step is no longer tied to the proof that the course ends. -/
theorem course_eq (c : Comparer) (left right : Source) :
    c.course left right =
      match c.step left right with
      | .finished next => .finished next
      | .failed fault next => .failed fault next
      | .compared block next left' right' => .compared block next (next.course left' right') := by
  rw [course]
  split
  · next hstep => rw [hstep]
  · next hstep => rw [hstep]
  · next hstep => rw [hstep]

/-- What is in the line makes no difference to what a step gets into the windows. -/
theorem step_reline (c : Comparer) (line : String) (left right : Source) :
    (c.reline line).step left right =
      match c.step left right with
      | .finished next => .finished (next.reline line)
      | .failed fault next => .failed fault (next.reline line)
      | .compared block next left' right' => .compared block (next.reline line) left' right' := by
  rw [step_eq_react, step_eq_react, react, react]
  dsimp only [reline]
  split
  · rfl
  · rfl
  · by_cases hempty : (left.fill c.left.length).taken = [] ∧ (right.fill c.right.length).taken = []
    · rw [if_pos hempty]
      exact if_pos hempty
    · rw [if_neg hempty]
      exact if_neg hempty

/-- Nor to what a comparer meets. -/
theorem course_reline (c : Comparer) (line : String) (left right : Source) :
    (c.reline line).course left right = (c.course left right).reline line := by
  fun_induction course c left right with
  | case1 c left right next hstep =>
    rw [course_eq, step_reline, hstep]
    rfl
  | case2 c left right fault next hstep =>
    rw [course_eq, step_reline, hstep]
    rfl
  | case3 c left right block next left' right' hstep ih =>
    rw [course_eq, step_reline, hstep]
    simp only [ih, Course.reline]

/-- A step leaves the line as it is. -/
theorem reline_line_of_step {c : Comparer} {left right : Source} {step : Step}
    (h : c.step left right = step) : step.next.reline c.line = step.next := by
  have hstep := c.step_reline c.line left right
  have hself : c.reline c.line = c := rfl
  rw [hself, h] at hstep
  cases step with
  | finished next => exact (Step.finished.inj hstep).symm
  | failed fault next => exact (Step.failed.inj hstep).2.symm
  | compared block next left' right' => exact (Step.compared.inj hstep).2.1.symm

/-- A run is its course, replayed. -/
theorem runFrom_eq_replay {σ : Type} [Outlet σ] (c : Comparer) (p : Progress)
    (left right : Source) (output : σ) (log : Array LogEntry) :
    c.runFrom p left right output log = (c.course left right).replay c.line p output log := by
  fun_induction runFrom c p left right output log with
  | case1 c p left right output log result hturn =>
    unfold turn at hturn
    split at hturn
    · next next hstep =>
      have hline : next.reline c.line = next := reline_line_of_step hstep
      cases hturn
      rw [course_eq, hstep, Course.replay, hline]
    · next fault next hstep =>
      have hline : next.reline c.line = next := reline_line_of_step hstep
      cases hturn
      rw [course_eq, hstep, Course.replay, hline]
    · next block next left' right' hstep =>
      have hline : next.reline c.line = next := reline_line_of_step hstep
      split at hturn
      · next hsettle =>
        cases hturn
        rw [course_eq, hstep, Course.replay, hline, hsettle]
      · cases hturn
  | case2 c p left right output log next' p' left' right' output' log' hturn ih =>
    obtain ⟨block, next, hstep, rfl, hsettle⟩ := exists_step_of_turn hturn
    obtain ⟨line, rfl⟩ := exists_reline_of_settle_ok hsettle
    have hline : next.reline c.line = next := reline_line_of_step hstep
    rw [ih, course_reline, Course.replay_reline, course_eq c, hstep, Course.replay, hline, hsettle,
      (sameShape_of_step hstep).layout]

end Comparer

/-! ### What comes out of a replay -/

/-- The progress after some blocks. -/
def Progress.advanceAll (p : Progress) (lineLength : Nat) : List Block → Progress
  | [] => p
  | block :: blocks => (p.advance lineLength block).advanceAll lineLength blocks

namespace Comparer

/-- The pieces of text that a comparer writes for some blocks.  Without a column for their offsets
there are none. -/
def pieces (c : Comparer) (p : Progress) : List Block → List (List Char)
  | [] => []
  | block :: blocks =>
    (if block.mask.differs ∧ c.style.offsetWidth ≤ Hex.maxWidth then [c.blockReport p block]
      else []) ++
      c.pieces (p.advance c.layout.lineLength block) blocks

/-- How a run ends that meets some blocks and then perhaps a fault, and could write everything: at a
block that has no lines, or in the fault, or with the counters of all blocks. -/
def ending (c : Comparer) (p : Progress) (blocks : List Block) (fault : Option Fault) :
    Except ReportError Stats :=
  if Hex.maxWidth < c.style.offsetWidth ∧ ∃ block ∈ blocks, block.mask.differs then
    .error (.overwide ⟨c.style.offsetWidth⟩)
  else
    match fault with
    | some fault => .error (.fault fault)
    | none => .ok (p.advanceAll c.layout.lineLength blocks).stats

/-- Without a column for their offsets, no blocks are written. -/
theorem pieces_of_overwide {c : Comparer} (h : Hex.maxWidth < c.style.offsetWidth) (p : Progress)
    (blocks : List Block) : c.pieces p blocks = [] := by
  induction blocks generalizing p with
  | nil => rfl
  | cons block blocks ih =>
    rw [pieces, ih, if_neg (not_and_of_not_right _ (Nat.not_le.mpr h)), List.nil_append]

/-- A run that meets no blocks ends with what was counted before, or in the fault. -/
theorem ending_nil (c : Comparer) (p : Progress) (fault : Option Fault) :
    c.ending p [] fault =
      match fault with
      | some fault => .error (.fault fault)
      | none => .ok p.stats := by
  refine if_neg ?_
  rintro ⟨-, block, hblock, -⟩
  cases hblock

/-- A run ends at its first block if that has no lines, and otherwise as the others require. -/
theorem ending_cons (c : Comparer) (p : Progress) (block : Block) (blocks : List Block)
    (fault : Option Fault) :
    c.ending p (block :: blocks) fault =
      if Hex.maxWidth < c.style.offsetWidth ∧ block.mask.differs then
        .error (.overwide ⟨c.style.offsetWidth⟩)
      else c.ending (p.advance c.layout.lineLength block) blocks fault := by
  have hsplit : (Hex.maxWidth < c.style.offsetWidth ∧
      ∃ block' ∈ block :: blocks, block'.mask.differs) ↔
      (Hex.maxWidth < c.style.offsetWidth ∧ block.mask.differs) ∨
        Hex.maxWidth < c.style.offsetWidth ∧ ∃ block' ∈ blocks, block'.mask.differs := by
    rw [List.exists_mem_cons_iff, and_or_left]
  by_cases hblock : Hex.maxWidth < c.style.offsetWidth ∧ block.mask.differs
  · rw [if_pos hblock]
    exact if_pos (hsplit.mpr (Or.inl hblock))
  · rw [if_neg hblock]
    exact if_congr (hsplit.trans (or_iff_right hblock)) rfl rfl

/-- All comparers on a course have the shape of the given one. -/
def KeepsShape (c : Comparer) : Course → Prop
  | .finished next => c.SameShape next
  | .failed _ next => c.SameShape next
  | .compared _ next more => c.SameShape next ∧ c.KeepsShape more

/-- The shape stays over a whole course. -/
theorem keepsShape_course {c d : Comparer} (h : c.SameShape d) (left right : Source) :
    c.KeepsShape (d.course left right) := by
  fun_induction course d left right with
  | case1 d left right next hstep =>
    have hnext := d.sameShape_step left right
    rw [hstep] at hnext
    exact h.trans hnext
  | case2 d left right fault next hstep =>
    have hnext := d.sameShape_step left right
    rw [hstep] at hnext
    exact h.trans hnext
  | case3 d left right block next left' right' hstep ih =>
    have hnext : c.SameShape next := h.trans (sameShape_of_step hstep)
    exact ⟨hnext, ih hnext⟩

end Comparer

namespace Course

variable {σ : Type} [Outlet σ] {c : Comparer}

/-- A replay on an output writes the pieces of the blocks, one after the other, as far as they go
through.  It ends in the first write that is refused, or else as the blocks and the fault of its
course require. -/
theorem replay_eq {course : Course} (h : c.KeepsShape course) (line : String) (p : Progress)
    (output : σ) (log : Array LogEntry) :
    (course.replay line p output log).output =
        (Outlet.writeAll output (c.pieces p course.blocks)).2 ∧
      (course.replay line p output log).outcome =
        ((Outlet.writeAll output (c.pieces p course.blocks)).1.mapError ReportError.fault).bind
          fun _ => c.ending p course.blocks course.fault := by
  induction course generalizing line p output log with
  | finished next =>
    rw [blocks, Comparer.pieces, fault, Comparer.ending_nil]
    exact ⟨rfl, rfl⟩
  | failed fault next =>
    rw [blocks, Comparer.pieces, Course.fault, Comparer.ending_nil]
    exact ⟨rfl, rfl⟩
  | compared block next more ih =>
    obtain ⟨hnext, hmore⟩ := h
    have hshape : c.SameShape (next.reline line) := hnext.trans (.reline next line)
    rw [replay, blocks, fault, Comparer.pieces, Comparer.ending_cons, hnext.layout]
    by_cases hdiffers : block.mask.differs
    · rcases Nat.lt_or_ge Hex.maxWidth c.style.offsetWidth with hwide | hwidth
      · rw [Comparer.settle_of_overwide (hshape.style ▸ hwide) hdiffers, hshape.style]
        rw [if_neg (not_and_of_not_right _ (Nat.not_le.mpr hwide)), if_pos ⟨hwide, hdiffers⟩,
          Comparer.pieces_of_overwide hwide]
        exact ⟨rfl, rfl⟩
      · rw [Comparer.settle_of_differs (hshape.style ▸ hwidth) hdiffers,
          Comparer.blockReport_of_sameShape hshape, if_pos ⟨hdiffers, hwidth⟩,
          if_neg (not_and_of_not_left _ (Nat.not_lt.mpr hwidth)), List.singleton_append,
          Outlet.writeAll]
        rcases Outlet.write output (c.blockReport p block) with ⟨_ | _, output'⟩
        · exact ⟨rfl, rfl⟩
        · exact ih hmore _ _ output' _
    · rw [Comparer.settle_of_not_differs hdiffers, if_neg (not_and_of_not_left _ hdiffers),
        if_neg (not_and_of_not_right _ hdiffers), List.nil_append]
      exact ih hmore _ _ output log

end Course

/-! ### What comes out of a run -/

namespace Comparer

variable {σ : Type} [Outlet σ]

/-- A run writes the pieces of the blocks of its course, as far as they go through. -/
theorem output_run (c : Comparer) (left right : Source) (output : σ) :
    (c.run left right output).output =
      (Outlet.writeAll output (c.pieces {} (c.course left right).blocks)).2 := by
  rw [run, runFrom_eq_replay]
  exact (Course.replay_eq (keepsShape_course (.refl c) left right) c.line {} output #[]).1

/-- A run ends in the first write that is refused, or else as its course requires. -/
theorem outcome_run (c : Comparer) (left right : Source) (output : σ) :
    (c.run left right output).outcome =
      ((Outlet.writeAll output (c.pieces {} (c.course left right).blocks)).1.mapError
        ReportError.fault).bind fun _ =>
          c.ending {} (c.course left right).blocks (c.course left right).fault := by
  rw [run, runFrom_eq_replay]
  exact (Course.replay_eq (keepsShape_course (.refl c) left right) c.line {} output #[]).2

end Comparer
end HexDiff
