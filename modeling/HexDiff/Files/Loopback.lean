import HexDiff.Files.Hashing
import HexDiff.Files.Spool

/-!
# Reports into an input

A report may be written to a file that is also read.  Creating the output empties that file, so the
input seems to have ended; but whatever part of the report comes to the file later, while the run
goes on, is read as further data.  What the spool still holds back when both inputs have come up
empty is not read any more.

Such a run may feed on its own report for ever.  Once the other input is used up, every block that
is read back differs and adds more to the report than was read.  The run then ends only if it
catches up with the file before the spool is pushed out again, and it has at most `Spool.capacity`
further blocks to do so.  A run that takes longer does not end.
-/

namespace HexDiff

/-- Which inputs are the file that the report goes to. -/
structure Loopback where
  left : Bool
  right : Bool
  deriving DecidableEq, Repr

namespace Loopback

/-- Whether any input is. -/
def any (loop : Loopback) : Bool :=
  loop.left || loop.right

/-- What an input holds when the run begins. -/
def initial (looped : Bool) (content : Source) : Source :=
  if looped then [] else content

/-- An input after some bytes have come to the file. -/
def feed (looped : Bool) (bytes : List UInt8) (source : Source) : Source :=
  if looped ∧ bytes ≠ [] then source ++ [.data bytes] else source

/-- The rest of a run, as long as it does not take more than the given number of blocks, and the
hashers of what it has read. -/
def runFrom (loop : Loopback) : Nat → Comparer → Progress → Source → Source → Spool →
    Array LogEntry → Hashing → Option (RunResult Spool × Hashing)
  | 0, _, _, _, _, _, _, _ => none
  | fuel + 1, c, p, left, right, spool, log, hashing =>
    let hashing' := c.hashStep left right hashing
    match c.turn p left right spool log with
    | .ended result => some (result, hashing')
    | .goesOn next p' left' right' spool' log' =>
      let news := spool'.newSince spool
      loop.runFrom fuel next p' (feed loop.left news left') (feed loop.right news right') spool'
        log' hashing'

/-- Compares two inputs with the report going to one of them, or to both.  There is no result if
the run does not end. -/
def run (loop : Loopback) (c : Comparer) (left right : Source) :
    Option (RunResult Spool × Hashing) :=
  let left' := initial loop.left left
  let right' := initial loop.right right
  loop.runFrom (left'.byteCount + right'.byteCount + Spool.capacity + 2) c {} left' right' {} #[] {}

end Loopback
end HexDiff
