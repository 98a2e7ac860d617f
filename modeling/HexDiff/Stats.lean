/-!
# Statistics

The counters of one comparison.
-/

namespace HexDiff

/-- What a comparison counts. -/
structure Stats where
  /-- Blocks compared. -/
  blocks : Nat := 0
  /-- Blocks with a differing position. -/
  differingBlocks : Nat := 0
  /-- Differing positions, those that only one side has included. -/
  differingBytes : Nat := 0
  /-- Bytes read from the left. -/
  leftLength : Nat := 0
  /-- Bytes read from the right. -/
  rightLength : Nat := 0
  deriving DecidableEq, Repr

/-- Whether no difference was found. -/
def Stats.identical (s : Stats) : Bool :=
  s.differingBlocks == 0

end HexDiff
