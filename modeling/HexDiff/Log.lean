import HexDiff.Base40
import HexDiff.Mask
import HexDiff.Stats

/-!
# Log entries

What is worth knowing about a comparison or a dump besides its result, by level of detail.
-/

namespace HexDiff

/-- How much detail an entry is, or how much a reader wants. -/
inductive LogLevel where
  | error
  | warn
  | info
  | debug
  | trace
  deriving DecidableEq, Repr

namespace LogLevel

/-- Levels count upwards with their detail. -/
def detail : LogLevel → Nat
  | error => 1
  | warn => 2
  | info => 3
  | debug => 4
  | trace => 5

/-- The name of a level, in upper case. -/
def name : LogLevel → String
  | error => "ERROR"
  | warn => "WARN"
  | info => "INFO"
  | debug => "DEBUG"
  | trace => "TRACE"

end LogLevel

/-- Something that happened. -/
inductive LogEntry where
  /-- A differing block: its offset, its differing positions, and how long its windows are. -/
  | blockDiffers (offset count leftLength rightLength : Nat)
  /-- The runs of a differing block. -/
  | blockRuns (offset : Nat) (runs : List Run)
  /-- A unit that an overlay shows as an error. -/
  | overlayError (e : Base40.Error)
  /-- A comparison has come to its end. -/
  | diffComplete (stats : Stats)
  /-- A dump of the bytes from `first` to `last` has come to its end. -/
  | dumped (lines first last : Nat)
  /-- Two files were compared. -/
  | filesCompared (stats : Stats)
  deriving DecidableEq, Repr

namespace LogEntry

/-- The level of an entry. -/
def level : LogEntry → LogLevel
  | blockDiffers .. => .debug
  | blockRuns .. => .trace
  | overlayError _ => .trace
  | diffComplete _ => .debug
  | dumped .. => .debug
  | filesCompared _ => .info

/-- The part of the program that an entry comes from.  A part within another has its name behind the
name of the other. -/
def source : LogEntry → String
  | blockDiffers .. | blockRuns .. | diffComplete _ => "blockdiff::diff::engine"
  | overlayError _ => "blockdiff::diff::overlay"
  | dumped .. => "blockdiff::dump"
  | filesCompared _ => "blockdiff::cli"

/-- An offset as entries show it. -/
def offsetText (n : Nat) : String :=
  "0x" ++ String.ofList (Hex.ofNat n)

/-- A run as entries show it. -/
def runText (run : Run) : String :=
  s!"{run.start}..{run.stop}"

/-- The wording of an entry. -/
def message : LogEntry → String
  | blockDiffers offset count leftLength rightLength =>
    s!"block {offsetText offset}: {count} differing positions " ++
      s!"(left {leftLength}, right {rightLength})"
  | blockRuns offset runs =>
    s!"block {offsetText offset}: runs [" ++ ", ".intercalate (runs.map runText) ++ "]"
  | overlayError e => s!"base40 overlay: {e.message}"
  | diffComplete s =>
    s!"diff complete: {s.blocks} blocks, {s.differingBlocks} differing, " ++
      s!"{s.differingBytes} differing bytes"
  | dumped lines first last =>
    s!"dumped {lines} lines ({offsetText first}..={offsetText last})"
  | filesCompared s =>
    s!"diff: {s.blocks} blocks compared, {s.differingBlocks} differ " ++
      s!"({s.differingBytes} bytes); left {s.leftLength} bytes, right {s.rightLength} bytes"

end LogEntry
end HexDiff
