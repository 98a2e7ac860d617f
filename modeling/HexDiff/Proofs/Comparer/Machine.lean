import HexDiff.Proofs.Comparer.Course
import HexDiff.Proofs.Passes

/-!
# Runs, step by step

A run is a loop around three others: filling the left window, filling the right one, and writing a
report.  A `Machine` is a run somewhere in the middle, and `Machine.next` takes it one step further:
one pass of filling, marking the mask for two windows, or reporting a block.  All preconditions are
checked on the way, so a step may also find one of them broken.

`Machine.Sound` is the invariant of a run.  The main statement is about one step from a sound
machine (`Machine.moves_next`).  It never breaks a precondition.  Either it leads to a sound machine
that has less to do (`Machine.toDo`) and comes to the same result (`Machine.result`), or the run
ends with that result.  The result of a machine at its start is that of the whole run
(`Machine.result_start`).
-/

namespace HexDiff

/-! ### Reports on a block -/

namespace Block

/-- A text with the two lines of a differing block behind it, with the preconditions of both lines
checked. -/
def linesChecked (block : Block) (style : LineStyle) (text : String) (offset : Nat) :
    Except Breach (Except Hex.Overwide String) := do
  match ← style.lineChecked text offset block.left block.mask.flags with
  | .error e => return .error e
  | .ok upper =>
    match ← style.lineChecked (upper.push '\n') offset block.right block.mask.flags with
    | .error e => return .error e
    | .ok lower => return .ok (lower.push '\n')

/-- What there is to log about a differing block before its lines are written, with its runs looked
for flag by flag. -/
def headingChecked (block : Block) (offset : Nat) : Except Breach (List LogEntry) := do
  let runs ← block.mask.runsChecked
  return [.blockDiffers offset block.mask.count block.left.length block.right.length,
    .blockRuns offset runs]

/-- A block that is no longer than a line, under a mask of its length, has its two lines. -/
theorem linesChecked_eq {block : Block} {style : LineStyle}
    (hleft : block.left.length ≤ style.capacity) (hright : block.right.length ≤ style.capacity)
    (hmask : block.mask.capacity = style.capacity) (text : String) (offset : Nat) :
    block.linesChecked style text offset = .ok (block.linesOnto style text offset) := by
  rw [linesChecked, linesOnto, LineStyle.lineChecked_eq hleft hmask, ok_bind]
  cases style.lineOnto text offset block.left block.mask.flags with
  | error e => rfl
  | ok upper =>
    dsimp only
    rw [LineStyle.lineChecked_eq hright hmask, ok_bind, ok_bind]
    cases style.lineOnto (upper.push '\n') offset block.right block.mask.flags with
    | error e => rfl
    | ok lower => rfl

/-- What is logged can be had for any block. -/
theorem headingChecked_eq (block : Block) (offset : Nat) :
    block.headingChecked offset = .ok (block.heading offset) := by
  rw [headingChecked, Mask.runsChecked_eq, ok_bind]
  rfl

end Block

/-! ### Machines -/

/-- Where in its loop a run is. -/
inductive Point where
  /-- Filling the left window, of which so many bytes are filled. -/
  | fillLeft (filled : Nat)
  /-- Filling the right window behind a left one of so many bytes. -/
  | fillRight (left filled : Nat)
  /-- Marking the mask for windows of so many bytes. -/
  | mark (left right : Nat)
  /-- Reporting windows of so many bytes that differ. -/
  | report (left right : Nat)

/-- A run somewhere in the middle. -/
structure Machine (σ : Type) where
  comparer : Comparer
  progress : Progress
  left : Source
  right : Source
  output : σ
  log : Array LogEntry
  point : Point

/-- Why a machine stops. -/
inductive Stop (σ : Type) where
  /-- The run is over. -/
  | ended (result : RunResult σ)
  /-- A precondition is not met. -/
  | broken (breach : Breach)

namespace Machine

variable {σ : Type}

/-- Goes on if a precondition is met. -/
def heed {α : Type} (x : Except Breach α) : Except (Stop σ) α :=
  x.mapError .broken

/-- What is behind a precondition that is met. -/
theorem heed_ok_bind {α β : Type} (a : α) (f : α → Except (Stop σ) β) :
    (heed (.ok a) >>= f) = f a := rfl

/-- The machine before the first step of a run. -/
def start (c : Comparer) (left right : Source) (output : σ) : Machine σ :=
  ⟨c, {}, left, right, output, #[], .fillLeft 0⟩

/-- The machine behind a block. -/
def advance (m : Machine σ) (block : Block) : Machine σ :=
  { m with
    progress := m.progress.advance m.comparer.layout.lineLength block
    point := .fillLeft 0 }

/-- What a pass of filling the left window leads to. -/
def afterLeft (m : Machine σ) (filled : Nat) : Source.Pass → Except (Stop σ) (Machine σ)
  | .goesOn buffer filled' rest =>
    .ok { m with
      comparer := { m.comparer with left := buffer }, left := rest, point := .fillLeft filled' }
  | .done rest => .ok { m with left := rest, point := .fillRight filled 0 }
  | .failed fault _ => .error (.ended ⟨.error (.fault fault), m.output, m.log, m.comparer⟩)

/-- What a pass of filling the right window leads to.  Two empty windows end the run. -/
def afterRight (m : Machine σ) (left filled : Nat) : Source.Pass → Except (Stop σ) (Machine σ)
  | .goesOn buffer filled' rest =>
    .ok { m with
      comparer := { m.comparer with right := buffer }, right := rest,
      point := .fillRight left filled' }
  | .done rest =>
    if left = 0 ∧ filled = 0 then
      .error (.ended ⟨.ok m.progress.stats, m.output,
        m.log.push (.diffComplete m.progress.stats), m.comparer⟩)
    else .ok { m with right := rest, point := .mark left filled }
  | .failed fault _ => .error (.ended ⟨.error (.fault fault), m.output, m.log, m.comparer⟩)

/-- One pass of filling the left window. -/
def nextLeft (m : Machine σ) (filled : Nat) : Except (Stop σ) (Machine σ) := do
  let pass ← heed (m.left.pass m.comparer.left filled)
  m.afterLeft filled pass

/-- One pass of filling the right window. -/
def nextRight (m : Machine σ) (left filled : Nat) : Except (Stop σ) (Machine σ) := do
  let pass ← heed (m.right.pass m.comparer.right filled)
  m.afterRight left filled pass

/-- Marks the mask for two windows. -/
def nextMark (m : Machine σ) (left right : Nat) : Except (Stop σ) (Machine σ) := do
  let lft ← heed (Checked.slice m.comparer.left 0 left)
  let rgt ← heed (Checked.slice m.comparer.right 0 right)
  let marked ← heed (m.comparer.mask.recomputeChecked lft rgt)
  let m' : Machine σ := { m with comparer := { m.comparer with mask := marked.2 } }
  if marked.1 then return { m' with point := .report left right }
  else return m'.advance ⟨lft, rgt, marked.2⟩

/-- Reports two windows that differ. -/
def nextReport [Outlet σ] (m : Machine σ) (left right : Nat) : Except (Stop σ) (Machine σ) := do
  let lft ← heed (Checked.slice m.comparer.left 0 left)
  let rgt ← heed (Checked.slice m.comparer.right 0 right)
  let block : Block := ⟨lft, rgt, m.comparer.mask⟩
  let heading ← heed (block.headingChecked m.progress.offset)
  let begun := m.comparer.separate m.progress
  let announced := m.log ++ heading
  let lines ← heed (block.linesChecked m.comparer.style begun.line m.progress.offset)
  match lines with
  | .error e => throw (.ended ⟨.error (.overwide e), m.output, announced, begun⟩)
  | .ok text =>
    let full := { begun with line := text }
    let log := announced ++ block.overlayErrors m.comparer.style
    match Outlet.write m.output full.line.toList with
    | (.ok (), output) => return { m with comparer := full, output, log }.advance block
    | (.error fault, output) => throw (.ended ⟨.error (.fault fault), output, log, full⟩)

/-- One step of a run. -/
def next [Outlet σ] (m : Machine σ) : Except (Stop σ) (Machine σ) :=
  match m.point with
  | .fillLeft filled => m.nextLeft filled
  | .fillRight left filled => m.nextRight left filled
  | .mark left right => m.nextMark left right
  | .report left right => m.nextReport left right

/-- Several steps of a run. -/
def after [Outlet σ] : Nat → Machine σ → Except (Stop σ) (Machine σ)
  | 0, m => .ok m
  | n + 1, m => m.next >>= after n

end Machine

/-! ### What is still to come -/

namespace Comparer

section Windows

variable {layout : Layout} {style : LineStyle} {c : Comparer} {n : Nat}

/-- The front of the left window. -/
theorem Fits.slice_left (h : Fits layout style c) (hn : n ≤ layout.lineLength) :
    Checked.slice c.left 0 n = .ok (c.left.take n) ∧ (c.left.take n).length = n := by
  rw [← h.length_left] at hn
  exact ⟨Checked.slice_zero hn, List.length_take_of_le hn⟩

/-- The front of the right window. -/
theorem Fits.slice_right (h : Fits layout style c) (hn : n ≤ layout.lineLength) :
    Checked.slice c.right 0 n = .ok (c.right.take n) ∧ (c.right.take n).length = n := by
  rw [← h.length_right] at hn
  exact ⟨Checked.slice_zero hn, List.length_take_of_le hn⟩

end Windows

variable {σ : Type} [Outlet σ]

/-- The result of a run that is at the end of a step of its comparer. -/
def conclude (p : Progress) (output : σ) (log : Array LogEntry) : Step → RunResult σ
  | .finished next => ⟨.ok p.stats, output, log.push (.diffComplete p.stats), next⟩
  | .failed fault next => ⟨.error (.fault fault), output, log, next⟩
  | .compared block next left right =>
    match next.settle p block output log with
    | .error result => result
    | .ok (next', output', log') =>
      next'.runFrom (p.advance next.layout.lineLength block) left right output' log'

/-- A run is one step and what comes behind it. -/
theorem runFrom_eq_conclude (c : Comparer) (p : Progress) (left right : Source) (output : σ)
    (log : Array LogEntry) :
    c.runFrom p left right output log = conclude p output log (c.step left right) := by
  rw [runFrom]
  split
  · next result hturn =>
    unfold turn at hturn
    split at hturn
    · next hstep =>
      cases hturn
      rw [hstep, conclude]
    · next hstep =>
      cases hturn
      rw [hstep, conclude]
    · next hstep =>
      split at hturn
      · next hsettle =>
        cases hturn
        rw [hstep, conclude, hsettle]
      · cases hturn
  · next hturn =>
    obtain ⟨block, compared, hstep, rfl, hsettle⟩ := exists_step_of_turn hturn
    rw [hstep, conclude, hsettle, (sameShape_of_step hstep).layout]

/-- What becomes of two windows that are filled. -/
def stepMark (c : Comparer) (left right : Nat) (leftRest rightRest : Source) : Step :=
  let lft := c.left.take left
  let rgt := c.right.take right
  let mask := c.mask.mark lft rgt
  .compared ⟨lft, rgt, mask⟩ { c with mask } leftRest rightRest

/-- What becomes of a step in the middle of filling the right window. -/
def stepRight (c : Comparer) (left filled : Nat) (leftRest right : Source) : Step :=
  let r := right.resume c.right filled
  let next := { c with right := r.buffer }
  match r.fault with
  | some fault => .failed fault next
  | none =>
    if left = 0 ∧ r.filled = 0 then .finished next
    else next.stepMark left r.filled leftRest r.rest

/-- What becomes of a step in the middle of filling the left window. -/
def stepLeft (c : Comparer) (filled : Nat) (left right : Source) : Step :=
  let l := left.resume c.left filled
  let next := { c with left := l.buffer }
  match l.fault with
  | some fault => .failed fault next
  | none => next.stepRight l.filled 0 l.rest right

/-- From the beginning, this is the whole step. -/
theorem stepLeft_zero (c : Comparer) (left right : Source) :
    c.stepLeft 0 left right = c.step left right := by
  rw [stepLeft, Source.resume_zero, step]
  cases (left.readBlock c.left).fault with
  | some fault => rfl
  | none =>
    dsimp only
    rw [stepRight, Source.resume_zero]
    rfl

end Comparer

/-- How many bytes are in the windows. -/
def Point.filled : Point → Nat
  | fillLeft filled => filled
  | fillRight left filled => left + filled
  | mark left right => left + right
  | report left right => left + right

/-- How many stages of a block are still to come. -/
def Point.rank : Point → Nat
  | fillLeft _ => 3
  | fillRight _ _ => 2
  | mark _ _ => 1
  | report _ _ => 0

/-- A place in the loop of a run with windows of `n` bytes.  Windows for which a mask is marked are
not both empty, and the mask under which they are reported has a flag that is set. -/
def Point.Within (n : Nat) (mask : Mask) : Point → Prop
  | fillLeft filled => filled ≤ n
  | fillRight left filled => left ≤ n ∧ filled ≤ n
  | mark left right => left ≤ n ∧ right ≤ n ∧ ¬(left = 0 ∧ right = 0)
  | report left right =>
    left ≤ n ∧ right ≤ n ∧ ¬(left = 0 ∧ right = 0) ∧ mask.differs = true

namespace Machine

variable {σ : Type}

/-- What becomes of the step that the comparer is in. -/
def pending (m : Machine σ) : Step :=
  match m.point with
  | .fillLeft filled => m.comparer.stepLeft filled m.left m.right
  | .fillRight left filled => m.comparer.stepRight left filled m.left m.right
  | .mark left right => m.comparer.stepMark left right m.left m.right
  | .report left right =>
    .compared ⟨m.comparer.left.take left, m.comparer.right.take right, m.comparer.mask⟩ m.comparer
      m.left m.right

/-- The result that a run will come to. -/
def result [Outlet σ] (m : Machine σ) : RunResult σ :=
  Comparer.conclude m.progress m.output m.log m.pending

/-- A bound on the steps that are still to come.  A byte may take a pass to be read, and the rank of
the next block when its own block is done. -/
def toDo (m : Machine σ) : Nat :=
  m.left.work + m.right.work +
    4 * (m.left.byteCount + m.right.byteCount + m.point.filled) + m.point.rank

/-- The bytes that are still to be compared. -/
def uncompared (m : Machine σ) : Nat :=
  m.left.byteCount + m.right.byteCount +
    match m.point with
    | .report _ _ => 0
    | point => point.filled

/-- The number of blocks that are compared by the next step: one or none. -/
def comparing (m : Machine σ) : Nat :=
  match m.point with
  | .mark _ _ => 1
  | _ => 0

/-- The blocks that have been compared, the one that is reported included. -/
def compared (m : Machine σ) : Nat :=
  m.progress.stats.blocks +
    match m.point with
    | .report _ _ => 1
    | _ => 0

/-- What holds of a machine all the time: its windows, mask and style have the line length, and it
is at a place within them. -/
structure Sound (layout : Layout) (style : LineStyle) (m : Machine σ) : Prop where
  fits : Comparer.Fits layout style m.comparer
  point : m.point.Within layout.lineLength m.comparer.mask

/-- Where a sound machine marks a mask. -/
theorem Sound.of_mark {layout : Layout} {style : LineStyle} {m : Machine σ} {left right : Nat}
    (h : m.Sound layout style) (hpoint : m.point = .mark left right) :
    left ≤ layout.lineLength ∧ right ≤ layout.lineLength ∧ ¬(left = 0 ∧ right = 0) := by
  simpa only [hpoint, Point.Within] using h.point

/-- Where a sound machine reports a block. -/
theorem Sound.of_report {layout : Layout} {style : LineStyle} {m : Machine σ} {left right : Nat}
    (h : m.Sound layout style) (hpoint : m.point = .report left right) :
    left ≤ layout.lineLength ∧ right ≤ layout.lineLength ∧ ¬(left = 0 ∧ right = 0) ∧
      m.comparer.mask.differs = true := by
  simpa only [hpoint, Point.Within] using h.point

/-- A machine is sound at its start. -/
theorem sound_start {layout : Layout} {style : LineStyle} {c : Comparer}
    (hc : Comparer.Fits layout style c) (left right : Source) (output : σ) :
    (start c left right output).Sound layout style :=
  ⟨hc, Nat.zero_le _⟩

/-- What one step may come to. -/
inductive Moves [Outlet σ] (layout : Layout) (style : LineStyle) (m : Machine σ) :
    Except (Stop σ) (Machine σ) → Prop
  /-- A sound machine with the same result and with less to do. -/
  | goesOn {m' : Machine σ} (hsound : m'.Sound layout style) (hresult : m'.result = m.result)
    (htoDo : m'.toDo < m.toDo) (huncompared : m'.uncompared + m.comparing ≤ m.uncompared)
    (hcompared : m'.compared = m.compared + m.comparing) : Moves layout style m (.ok m')
  /-- The end of the run, with the result. -/
  | ended {result : RunResult σ} (hresult : result = m.result) (hcomparing : m.comparing = 0)
    (hcompared : ∀ stats, result.outcome = .ok stats → stats.blocks = m.compared) :
    Moves layout style m (.error (.ended result))

variable [Outlet σ]

/-- The result of a machine at its start is that of the run. -/
theorem result_start (c : Comparer) (left right : Source) (output : σ) :
    (start c left right output).result = c.run left right output := by
  rw [Comparer.run, Comparer.runFrom_eq_conclude, ← Comparer.stepLeft_zero]
  rfl

/-- Behind a block, the result is that of the rest of the run. -/
theorem result_advance (m : Machine σ) (block : Block) :
    (m.advance block).result =
      m.comparer.runFrom (m.progress.advance m.comparer.layout.lineLength block) m.left m.right
        m.output m.log := by
  rw [Comparer.runFrom_eq_conclude, ← Comparer.stepLeft_zero]
  rfl

variable {layout : Layout} {style : LineStyle} {m : Machine σ}

/-- Filling the left window. -/
theorem moves_nextLeft (h : m.Sound layout style) {filled : Nat}
    (hpoint : m.point = .fillLeft filled) : Moves layout style m (m.nextLeft filled) := by
  have hresult : m.result = Comparer.conclude m.progress m.output m.log
      (m.comparer.stepLeft filled m.left m.right) := by rw [result, pending, hpoint]
  have hfilled : filled ≤ layout.lineLength := by
    simpa only [hpoint, Point.Within] using h.point
  obtain ⟨pass, hpass, hpasses⟩ :=
    m.left.exists_pass_eq (hfilled.trans_eq h.fits.length_left.symm)
  rw [nextLeft, hpass, heed_ok_bind]
  cases hpasses with
  | @goesOn buffer filled' rest hlength hfilled' hbytes hwork hresume =>
    have hfits : Comparer.Fits layout style { m.comparer with left := buffer } :=
      { h.fits with length_left := hlength.trans h.fits.length_left }
    have hstep : Comparer.stepLeft { m.comparer with left := buffer } filled' rest m.right =
        m.comparer.stepLeft filled m.left m.right := by
      rw [Comparer.stepLeft, Comparer.stepLeft, hresume]
    refine .goesOn ⟨hfits, hfilled'.trans_eq h.fits.length_left⟩ ?_ ?_ ?_ ?_
    · rw [hresult, ← hstep]
      rfl
    · simp only [toDo, hpoint, Point.filled, Point.rank]
      omega
    · simp only [uncompared, comparing, hpoint, Point.filled]
      omega
    · simp only [compared, comparing, hpoint]
  | @done rest hbytes hwork hresume =>
    have hstep : m.comparer.stepRight filled 0 rest m.right =
        m.comparer.stepLeft filled m.left m.right := by rw [Comparer.stepLeft, hresume]
    refine .goesOn ⟨h.fits, ⟨hfilled, Nat.zero_le _⟩⟩ ?_ ?_ ?_ ?_
    · rw [hresult, ← hstep]
      rfl
    · simp only [toDo, hpoint, Point.filled, Point.rank]
      omega
    · simp only [uncompared, comparing, hpoint, Point.filled]
      omega
    · simp only [compared, comparing, hpoint]
  | @failed fault rest hresume =>
    refine .ended ?_ (by rw [comparing, hpoint]) (by rintro _ ⟨⟩)
    rw [hresult, Comparer.stepLeft, hresume, Comparer.conclude]

/-- Filling the right window. -/
theorem moves_nextRight (h : m.Sound layout style) {left filled : Nat}
    (hpoint : m.point = .fillRight left filled) :
    Moves layout style m (m.nextRight left filled) := by
  have hresult : m.result = Comparer.conclude m.progress m.output m.log
      (m.comparer.stepRight left filled m.left m.right) := by rw [result, pending, hpoint]
  obtain ⟨hleft, hfilled⟩ : left ≤ layout.lineLength ∧ filled ≤ layout.lineLength := by
    simpa only [hpoint, Point.Within] using h.point
  obtain ⟨pass, hpass, hpasses⟩ :=
    m.right.exists_pass_eq (hfilled.trans_eq h.fits.length_right.symm)
  rw [nextRight, hpass, heed_ok_bind]
  cases hpasses with
  | @goesOn buffer filled' rest hlength hfilled' hbytes hwork hresume =>
    have hfits : Comparer.Fits layout style { m.comparer with right := buffer } :=
      { h.fits with length_right := hlength.trans h.fits.length_right }
    have hstep : Comparer.stepRight { m.comparer with right := buffer } left filled' m.left rest =
        m.comparer.stepRight left filled m.left m.right := by
      rw [Comparer.stepRight, Comparer.stepRight, hresume]
    refine .goesOn ⟨hfits, ⟨hleft, hfilled'.trans_eq h.fits.length_right⟩⟩ ?_ ?_ ?_ ?_
    · rw [hresult, ← hstep]
      rfl
    · simp only [toDo, hpoint, Point.filled, Point.rank]
      omega
    · simp only [uncompared, comparing, hpoint, Point.filled]
      omega
    · simp only [compared, comparing, hpoint]
  | @done rest hbytes hwork hresume =>
    by_cases hempty : left = 0 ∧ filled = 0
    · rw [afterRight, if_pos hempty]
      refine .ended ?_ (by rw [comparing, hpoint]) ?_
      · rw [hresult, Comparer.stepRight, hresume]
        dsimp only
        rw [if_pos hempty, Comparer.conclude]
      · rintro _ ⟨⟩
        simp only [compared, hpoint, Nat.add_zero]
    · have hstep : m.comparer.stepMark left filled m.left rest =
          m.comparer.stepRight left filled m.left m.right := by
        rw [Comparer.stepRight, hresume]
        dsimp only
        rw [if_neg hempty]
      rw [afterRight, if_neg hempty]
      refine .goesOn ⟨h.fits, ⟨hleft, hfilled, hempty⟩⟩ ?_ ?_ ?_ ?_
      · rw [hresult, ← hstep]
        rfl
      · simp only [toDo, hpoint, Point.filled, Point.rank]
        omega
      · simp only [uncompared, comparing, hpoint, Point.filled]
        omega
      · simp only [compared, comparing, hpoint]
  | @failed fault rest hresume =>
    refine .ended ?_ (by rw [comparing, hpoint]) (by rintro _ ⟨⟩)
    rw [hresult, Comparer.stepRight, hresume, Comparer.conclude]

/-- Marking the mask. -/
theorem moves_nextMark (h : m.Sound layout style) {left right : Nat}
    (hpoint : m.point = .mark left right) : Moves layout style m (m.nextMark left right) := by
  have hresult : m.result = Comparer.conclude m.progress m.output m.log
      (m.comparer.stepMark left right m.left m.right) := by rw [result, pending, hpoint]
  have hcapacity := h.fits.capacity_mask
  obtain ⟨hleft, hright, hne⟩ := h.of_mark hpoint
  obtain ⟨hlft, hlength⟩ := h.fits.slice_left hleft
  obtain ⟨hrgt, hlength'⟩ := h.fits.slice_right hright
  rw [nextMark, hlft, heed_ok_bind, hrgt, heed_ok_bind,
    Mask.recomputeChecked_eq (by omega) (by omega), heed_ok_bind]
  rw [Comparer.stepMark] at hresult
  generalize hwindow : m.comparer.left.take left = lft at *
  generalize hwindow' : m.comparer.right.take right = rgt at *
  have hfits : Comparer.Fits layout style
      { m.comparer with mask := m.comparer.mask.mark lft rgt } :=
    { h.fits with capacity_mask := (Mask.capacity_mark _ _ _).trans hcapacity }
  have hdiffers : (m.comparer.mask.mark lft rgt).differs = true ↔ lft ≠ rgt := by
    rw [Mask.mark_eq]
    exact Mask.differs_flagsOf_iff (by omega) (by omega)
  by_cases hsame : lft = rgt
  · rw [if_neg (by simpa using hsame)]
    refine .goesOn ⟨hfits, Nat.zero_le _⟩ ?_ ?_ ?_ ?_
    · rw [result_advance, hresult, Comparer.conclude,
        Comparer.settle_of_not_differs (by simpa [hdiffers] using hsame)]
    · simp only [toDo, advance, hpoint, Point.filled, Point.rank]
      omega
    · simp only [uncompared, comparing, advance, hpoint, Point.filled]
      omega
    · simp only [compared, comparing, advance, hpoint, Progress.advance, Nat.add_zero]
  · rw [if_pos (by simpa using hsame)]
    refine .goesOn ⟨hfits, ⟨hleft, hright, hne, hdiffers.mpr hsame⟩⟩ ?_ ?_ ?_ ?_
    · rw [hresult, ← hwindow, ← hwindow']
      rfl
    · simp only [toDo, hpoint, Point.filled, Point.rank]
      omega
    · simp only [uncompared, comparing, hpoint, Point.filled]
      omega
    · simp only [compared, comparing, hpoint]

/-- A block that is reported with all preconditions checked is reported as without. -/
theorem nextReport_eq (h : m.Sound layout style) {left right : Nat}
    (hpoint : m.point = .report left right) :
    let block : Block :=
      ⟨m.comparer.left.take left, m.comparer.right.take right, m.comparer.mask⟩
    m.nextReport left right =
      match m.comparer.settle m.progress block m.output m.log with
      | .error result => .error (.ended result)
      | .ok (comparer, output, log) => .ok ({ m with comparer, output, log }.advance block) := by
  have hstyle : m.comparer.style.capacity = layout.lineLength := by
    rw [h.fits.style_eq, h.fits.capacity_style]
  obtain ⟨hleft, hright, hne, hdiffers⟩ := h.of_report hpoint
  obtain ⟨hlft, hlength⟩ := h.fits.slice_left hleft
  obtain ⟨hrgt, hlength'⟩ := h.fits.slice_right hright
  have hfit : (m.comparer.left.take left).length ≤ m.comparer.style.capacity := by omega
  have hfit' : (m.comparer.right.take right).length ≤ m.comparer.style.capacity := by omega
  have hmask : m.comparer.mask.capacity = m.comparer.style.capacity :=
    h.fits.capacity_mask.trans hstyle.symm
  intro block
  rw [nextReport, hlft, heed_ok_bind, hrgt, heed_ok_bind]
  dsimp only
  rw [Block.headingChecked_eq, heed_ok_bind, Block.linesChecked_eq hfit hfit' hmask, heed_ok_bind,
    Comparer.settle, if_pos hdiffers]
  dsimp only
  cases Block.linesOnto _ m.comparer.style (m.comparer.separate m.progress).line
    m.progress.offset with
  | error e => rfl
  | ok text =>
    dsimp only
    rcases Outlet.write m.output text.toList with ⟨_ | _, output⟩
    · rfl
    · rfl

/-- Reporting a block. -/
theorem moves_nextReport (h : m.Sound layout style) {left right : Nat}
    (hpoint : m.point = .report left right) :
    Moves layout style m (m.nextReport left right) := by
  have hresult : m.result = Comparer.conclude m.progress m.output m.log
      (.compared ⟨m.comparer.left.take left, m.comparer.right.take right, m.comparer.mask⟩
        m.comparer m.left m.right) := by rw [result, pending, hpoint]
  obtain ⟨hleft, hright, hne, -⟩ := h.of_report hpoint
  rw [nextReport_eq h hpoint]
  rw [Comparer.conclude] at hresult
  cases hsettle : m.comparer.settle m.progress
      ⟨m.comparer.left.take left, m.comparer.right.take right, m.comparer.mask⟩ m.output m.log with
  | error ended =>
    rw [hsettle] at hresult
    refine .ended hresult.symm (by rw [comparing, hpoint]) (fun stats hstats => ?_)
    rcases Comparer.outcome_of_settle_error hsettle with ⟨e, he⟩ | ⟨e, he⟩ <;>
      cases he.symm.trans hstats
  | ok settled =>
    obtain ⟨comparer, output, log⟩ := settled
    rw [hsettle] at hresult
    obtain ⟨line, rfl⟩ := Comparer.exists_reline_of_settle_ok hsettle
    refine .goesOn ⟨h.fits.of_sameShape (.reline m.comparer line), Nat.zero_le _⟩ ?_ ?_ ?_ ?_
    · rw [result_advance, hresult]
      rfl
    · simp only [toDo, advance, hpoint, Point.filled, Point.rank]
      omega
    · simp only [uncompared, comparing, advance, hpoint, Point.filled]
      omega
    · simp only [compared, comparing, advance, hpoint, Progress.advance, Nat.add_zero]

/-- **One step.**  A sound machine never breaks a precondition.  Its next step leads to a sound
machine that comes to the same result and has less to do, or it ends the run with this result. -/
theorem moves_next (h : m.Sound layout style) : Moves layout style m m.next := by
  unfold next
  cases hpoint : m.point with
  | fillLeft filled => exact moves_nextLeft h hpoint
  | fillRight left filled => exact moves_nextRight h hpoint
  | mark left right => exact moves_nextMark h hpoint
  | report left right => exact moves_nextReport h hpoint

/-- **Several steps.**  After any number of them, a machine that was sound still is, and has as much
less to do, or the run has ended with its result. -/
theorem after_cases (h : m.Sound layout style) (n : Nat) :
    (∃ m' : Machine σ, m.after n = .ok m' ∧ m'.Sound layout style ∧ m'.toDo + n ≤ m.toDo) ∨
      m.after n = .error (.ended m.result) := by
  induction n generalizing m with
  | zero => exact Or.inl ⟨m, rfl, h, le_rfl⟩
  | succ n ih =>
    rw [after]
    have hmoves := moves_next h
    generalize m.next = next at hmoves
    cases hmoves with
    | @goesOn m' hsound hresult htoDo =>
      rw [ok_bind, ← hresult]
      obtain ⟨m'', hafter, hsound', hless⟩ | hended := ih hsound
      · exact Or.inl ⟨m'', hafter, hsound', by omega⟩
      · exact Or.inr hended
    | ended hresult =>
      right
      rw [hresult]
      rfl

/-- A machine that is sound comes to its result. -/
theorem after_toDo (h : m.Sound layout style) :
    m.after (m.toDo + 1) = .error (.ended m.result) := by
  obtain ⟨m', -, -, hless⟩ | hended := after_cases h (m.toDo + 1)
  · omega
  · exact hended

/-- From its start, it comes to the result of the run. -/
theorem after_start {c : Comparer} (hc : Comparer.Fits layout style c) (left right : Source)
    (output : σ) :
    (start c left right output).after ((start c left right output).toDo + 1) =
      .error (.ended (c.run left right output)) := by
  rw [after_toDo (sound_start hc left right output), result_start]

end Machine
end HexDiff
