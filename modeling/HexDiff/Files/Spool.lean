import HexDiff.Stream.Outlet

/-!
# Spools

What is written to a file is collected and goes to the file in large pieces.  A spool tells what the
file holds already (`flushed`) from what is still held back (`pending`).  A piece for which there is
no room pushes out what is held back before it, and a piece that is as large as the whole spool is
not held back at all.
-/

namespace HexDiff

/-- A file being written. -/
structure Spool where
  flushed : Array UInt8 := #[]
  pending : Array UInt8 := #[]
  deriving Repr

namespace Spool

/-- How many bytes are held back at most. -/
def capacity : Nat := 65536

/-- Everything that has been written. -/
def written (spool : Spool) : Array UInt8 :=
  spool.flushed ++ spool.pending

/-- Brings everything to the file. -/
def flush (spool : Spool) : Spool :=
  ⟨spool.written, #[]⟩

/-- Holds a piece back. -/
def hold (spool : Spool) (piece : List UInt8) : Spool :=
  { spool with pending := spool.pending ++ piece }

/-- Adds a piece after what was written before. -/
def write (spool : Spool) (piece : List UInt8) : Spool :=
  let spare := capacity - spool.pending.size
  if piece.length < spare then spool.hold piece
  else
    let cleared := if spare < piece.length then spool.flush else spool
    if capacity ≤ piece.length then (cleared.hold piece).flush else cleared.hold piece

instance : Outlet Spool where
  write spool cs := (.ok (), spool.write (utf8 cs))

/-- What has come to the file since an earlier state. -/
def newSince (spool earlier : Spool) : List UInt8 :=
  (spool.flushed.extract earlier.flushed.size).toList

/-- Nothing is lost or moved. -/
theorem toList_written_write (spool : Spool) (piece : List UInt8) :
    (spool.write piece).written.toList = spool.written.toList ++ piece := by
  simp only [write]
  split
  · simp [hold, written]
  · split <;> split <;> simp [hold, flush, written]

end Spool
end HexDiff
