import HexDiff.Line
import HexDiff.Log
import HexDiff.Stream.Outlet
import HexDiff.Stream.Source

/-!
# Comparing streams

A comparer takes one block after the other from two streams, always a block of each, and reports
the blocks that differ.  It stops when both streams come up empty for the same block.

A differing block is reported in one piece: a separator, then the two lines, each with a line
break.  The separator is an empty line, or a row of dots if the block before differed too.

The windows, the mask and the text in which a piece of the report is put together belong to the
comparer and are used again for every block and every run.
-/

namespace HexDiff

/-- Why a report cannot be made or was cut short. -/
inductive ReportError where
  | layout (e : LayoutError)
  | capacity (style lineLength : Nat)
  | fault (f : Fault)
  /-- This one is not reported: the program breaks off when it comes to a line. -/
  | overwide (e : Hex.Overwide)
  deriving DecidableEq, Repr

/-- The wording of an error. -/
def ReportError.message : ReportError → String
  | .layout e => s!"invalid options: {e.message}"
  | .capacity style lineLength =>
    s!"renderer capacity {style} does not match line length {lineLength}"
  | .fault f => s!"I/O error: {f.text}"
  | .overwide e => e.message

/-! ### Blocks -/

/-- What the two streams hold at the same place, and where it differs. -/
structure Block where
  left : List UInt8
  right : List UInt8
  mask : Mask
  deriving DecidableEq, Repr

namespace Block

/-- A text with the two lines of a differing block behind it, each with a line break. -/
def linesOnto (block : Block) (style : LineStyle) (text : String) (offset : Nat) :
    Except Hex.Overwide String := do
  let upper ← style.lineOnto text offset block.left block.mask.flags
  let lower ← style.lineOnto (upper.push '\n') offset block.right block.mask.flags
  return lower.push '\n'

/-- What there is to log about a differing block before its lines are written. -/
def heading (block : Block) (offset : Nat) : List LogEntry :=
  [.blockDiffers offset block.mask.count block.left.length block.right.length,
    .blockRuns offset block.mask.runs]

/-- What there is to log about its lines. -/
def overlayErrors (block : Block) (style : LineStyle) : List LogEntry :=
  (style.errors block.left ++ style.errors block.right).map .overlayError

end Block

/-! ### Progress -/

/-- How far a comparison has come. -/
structure Progress where
  stats : Stats := {}
  /-- The offset of the next block. -/
  offset : Nat := 0
  /-- Whether the block before differed. -/
  afterDifference : Bool := false
  deriving DecidableEq, Repr

/-- The progress after a block of a line of `lineLength` bytes. -/
def Progress.advance (p : Progress) (lineLength : Nat) (block : Block) : Progress where
  stats :=
    { blocks := p.stats.blocks + 1
      differingBlocks := p.stats.differingBlocks + block.mask.differs.toNat
      differingBytes := p.stats.differingBytes + block.mask.count
      leftLength := p.stats.leftLength + block.left.length
      rightLength := p.stats.rightLength + block.right.length }
  offset := p.offset + lineLength
  afterDifference := block.mask.differs

/-! ### Comparers -/

/-- A layout and a line style with the windows, the mask and the line that all blocks share. -/
structure Comparer where
  layout : Layout
  style : LineStyle
  left : List UInt8
  right : List UInt8
  mask : Mask
  /-- The piece of the report for the last block that differed, as far as it was put together. -/
  line : String

/-- What becomes of the next block. -/
inductive Step where
  /-- Neither stream had anything. -/
  | finished (next : Comparer)
  /-- A stream failed. -/
  | failed (fault : Fault) (next : Comparer)
  /-- A block was compared; this is what the streams have left. -/
  | compared (block : Block) (next : Comparer) (left right : Source)

/-- The result of a run: statistics or the error that ended it, the output with what has been
written, the log, and the comparer for the next run. -/
structure RunResult (σ : Type) where
  outcome : Except ReportError Stats
  output : σ
  log : Array LogEntry
  next : Comparer

/-- What one block of a run leads to. -/
inductive Turn (σ : Type) where
  | ended (result : RunResult σ)
  | goesOn (next : Comparer) (p : Progress) (left right : Source) (output : σ)
    (log : Array LogEntry)

namespace Comparer

/-- A comparer with a line style of its own.  The layout is checked first; then the style has to
have as many positions as the layout. -/
def ofStyle? (layout : Layout) (style : LineStyle) : Except ReportError Comparer :=
  match layout.check with
  | .error e => .error (.layout e)
  | .ok () =>
    if style.capacity ≠ layout.lineLength then
      .error (.capacity style.capacity layout.lineLength)
    else
      .ok
        { layout, style
          left := List.replicate layout.lineLength 0
          right := List.replicate layout.lineLength 0
          mask := .clear layout.lineLength
          line := "" }

/-- A comparer with the line style of its layout. -/
def ofLayout? (layout : Layout) : Except ReportError Comparer :=
  ofStyle? layout (.ofLayout layout)

/-- The dots between two blocks that differ one after the other. -/
def connector (c : Comparer) : List Char :=
  List.replicate c.layout.offsetWidth '.'

/-- Takes a block from each stream, the left one first. -/
def step (c : Comparer) (left right : Source) : Step :=
  let l := left.readBlock c.left
  match l.fault with
  | some fault => .failed fault { c with left := l.buffer }
  | none =>
    let r := right.readBlock c.right
    match r.fault with
    | some fault => .failed fault { c with left := l.buffer, right := r.buffer }
    | none =>
      if l.filled = 0 ∧ r.filled = 0 then .finished { c with left := l.buffer, right := r.buffer }
      else
        let lft := l.buffer.take l.filled
        let rgt := r.buffer.take r.filled
        let mask := c.mask.mark lft rgt
        .compared ⟨lft, rgt, mask⟩ { c with left := l.buffer, right := r.buffer, mask }
          l.rest r.rest

/-- A compared block has used up data. -/
theorem byteCount_lt_of_step {c next : Comparer} {left right left' right' : Source}
    {block : Block} (h : c.step left right = .compared block next left' right') :
    left'.byteCount + right'.byteCount < left.byteCount + right.byteCount := by
  have hl := Source.byteCount_readBlock left c.left
  have hr := Source.byteCount_readBlock right c.right
  simp only [step] at h
  split at h
  · cases h
  · split at h
    · cases h
    · split at h
      · cases h
      · simp only [Step.compared.injEq] at h
        obtain ⟨-, -, rfl, rfl⟩ := h
        omega

/-- Clears the line and begins it again with what separates a block from the one before it. -/
def separate (c : Comparer) (p : Progress) : Comparer :=
  let cleared := { c with line := "" }
  let connected :=
    if p.afterDifference then
      { cleared with line := cleared.line ++ String.ofList cleared.connector }
    else cleared
  { connected with line := connected.line.push '\n' }

/-- Reports a compared block, if it differs: the comparer, the output and the log afterwards, or the
result of a run that ends here. -/
def settle {σ : Type} [Outlet σ] (c : Comparer) (p : Progress) (block : Block) (output : σ)
    (log : Array LogEntry) : Except (RunResult σ) (Comparer × σ × Array LogEntry) :=
  if block.mask.differs then
    let begun := c.separate p
    let announced := log ++ block.heading p.offset
    match block.linesOnto c.style begun.line p.offset with
    | .error e => .error ⟨.error (.overwide e), output, announced, begun⟩
    | .ok text =>
      let full := { begun with line := text }
      let log' := announced ++ block.overlayErrors c.style
      match Outlet.write output full.line.toList with
      | (.ok (), output') => .ok (full, output', log')
      | (.error fault, output') => .error ⟨.error (.fault fault), output', log', full⟩
  else .ok (c, output, log)

/-- One block of a run. -/
def turn {σ : Type} [Outlet σ] (c : Comparer) (p : Progress) (left right : Source) (output : σ)
    (log : Array LogEntry) : Turn σ :=
  match c.step left right with
  | .finished next => .ended ⟨.ok p.stats, output, log.push (.diffComplete p.stats), next⟩
  | .failed fault next => .ended ⟨.error (.fault fault), output, log, next⟩
  | .compared block next left' right' =>
    match next.settle p block output log with
    | .error result => .ended result
    | .ok (next', output', log') =>
      .goesOn next' (p.advance c.layout.lineLength block) left' right' output' log'

/-- A block after which a run goes on is one that was compared, and reported if it differs. -/
theorem exists_step_of_turn {σ : Type} [Outlet σ] {c next' : Comparer} {p p' : Progress}
    {left right left' right' : Source} {output output' : σ} {log log' : Array LogEntry}
    (h : c.turn p left right output log = .goesOn next' p' left' right' output' log') :
    ∃ block next, c.step left right = .compared block next left' right' ∧
      p' = p.advance c.layout.lineLength block ∧
      next.settle p block output log = .ok (next', output', log') := by
  simp only [turn] at h
  split at h
  · cases h
  · cases h
  · next block next _ _ hstep =>
    split at h
    · cases h
    · next hsettle =>
      cases h
      exact ⟨block, next, hstep, rfl, hsettle⟩

/-- Such a block has used up data. -/
theorem byteCount_lt_of_turn {σ : Type} [Outlet σ] {c next : Comparer} {p p' : Progress}
    {left right left' right' : Source} {output output' : σ} {log log' : Array LogEntry}
    (h : c.turn p left right output log = .goesOn next p' left' right' output' log') :
    left'.byteCount + right'.byteCount < left.byteCount + right.byteCount := by
  obtain ⟨block, compared, hstep, -, -⟩ := exists_step_of_turn h
  exact byteCount_lt_of_step hstep

/-- The rest of a run from a given progress on. -/
def runFrom {σ : Type} [Outlet σ] (c : Comparer) (p : Progress) (left right : Source) (output : σ)
    (log : Array LogEntry) : RunResult σ :=
  match _h : c.turn p left right output log with
  | .ended result => result
  | .goesOn next p' left' right' output' log' => next.runFrom p' left' right' output' log'
termination_by left.byteCount + right.byteCount
decreasing_by exact byteCount_lt_of_turn _h

/-- Compares two streams and writes the report to an output. -/
def run {σ : Type} [Outlet σ] (c : Comparer) (left right : Source) (output : σ) : RunResult σ :=
  c.runFrom {} left right output #[]

end Comparer

/-! ### Whole contents -/

/-- Compares two contents. -/
def compareBytes {σ : Type} [Outlet σ] (layout : Layout) (left right : List UInt8) (output : σ) :
    Except ReportError (RunResult σ) := do
  let c ← Comparer.ofLayout? layout
  return c.run (.ofBytes left) (.ofBytes right) output

/-- The report on two contents: the bytes of a report, read as a text. -/
def diffText (layout : Layout) (left right : List UInt8) : Except ReportError String := do
  let result ← compareBytes layout left right ({} : Sink)
  let _ ← result.outcome
  (readUtf8 result.output.written).mapError fun e => .fault ⟨.invalidData, e.message⟩

end HexDiff
