import HexDiff.Stream.Fault
import HexDiff.Text.Utf8

/-!
# Outlets

An outlet is something that a report can be written to.  A text takes whatever it is given; a sink
takes a limited number of bytes and then refuses.  What a sink was given beyond its limit is cut
there, so that everything up to the limit arrives even if the write fails.
-/

namespace HexDiff

/-- Something to which pieces of text can be written. -/
class Outlet (σ : Type) where
  /-- Writes a whole piece of text, or reports why it did not all go through. -/
  write : σ → List Char → Except Fault Unit × σ

/-- A text grows by what is written to it. -/
instance : Outlet String where
  write text cs := (.ok (), text ++ String.ofList cs)

/-- An output that takes a limited number of bytes. -/
structure Sink where
  /-- What has arrived. -/
  written : Array UInt8 := #[]
  /-- How many bytes are still taken; unlimited if absent. -/
  room : Option Nat := none
  /-- What is reported when there is no room left. -/
  whenFull : Fault := .writeZero
  deriving Repr

namespace Sink

/-- Writes bytes as far as there is room. -/
def push (sink : Sink) (bytes : List UInt8) : Except Fault Unit × Sink :=
  match sink.room with
  | none => (.ok (), { sink with written := sink.written ++ bytes })
  | some room =>
    let taken := bytes.take room
    let sink' := { sink with written := sink.written ++ taken, room := some (room - taken.length) }
    if (bytes.drop room).isEmpty then (.ok (), sink') else (.error sink.whenFull, sink')

instance : Outlet Sink where
  write sink cs := sink.push (utf8 cs)

end Sink
end HexDiff
