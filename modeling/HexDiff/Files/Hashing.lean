import HexDiff.Comparer
import HexDiff.Sha256

/-!
# Hashing what is read

While files are compared, two hashers look on, one for each side.  Whenever a read gets some bytes,
the hasher of its side takes them in: each byte once, and none of what a window held before.  So the
digests are those of the files only if the comparer reads both files to the end.

The hashers are part of the run and go with it from block to block.
-/

namespace HexDiff

/-- A hasher for each of two streams. -/
structure Hashing where
  left : Sha256.Hasher := {}
  right : Sha256.Hasher := {}
  deriving DecidableEq, Repr

namespace Comparer

/-- The hashers after the reads of a step.  The right stream is not read behind a left one that
fails. -/
def hashStep (c : Comparer) (left right : Source) (hashing : Hashing) : Hashing where
  left := (left.reads c.left.length).foldl Sha256.Hasher.update hashing.left
  right :=
    if (left.fill c.left.length).fault.isSome then hashing.right
    else (right.reads c.right.length).foldl Sha256.Hasher.update hashing.right

/-- The rest of a run with hashers that look on, and the hashers after it. -/
def hashedFrom {σ : Type} [Outlet σ] (c : Comparer) (p : Progress) (left right : Source)
    (output : σ) (log : Array LogEntry) (hashing : Hashing) : RunResult σ × Hashing :=
  match _h : c.turn p left right output log with
  | .ended result => (result, c.hashStep left right hashing)
  | .goesOn next p' left' right' output' log' =>
    next.hashedFrom p' left' right' output' log' (c.hashStep left right hashing)
termination_by left.byteCount + right.byteCount
decreasing_by exact byteCount_lt_of_turn _h

/-- A run that hashers look on at, and the hashers after it. -/
def hashedRun {σ : Type} [Outlet σ] (c : Comparer) (left right : Source) (output : σ) :
    RunResult σ × Hashing :=
  c.hashedFrom {} left right output #[] {}

end Comparer
end HexDiff
