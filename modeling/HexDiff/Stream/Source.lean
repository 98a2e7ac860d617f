import HexDiff.Stream.Fault

/-!
# Sources

A source is what a stream still has to deliver, as the list of things that its reads will meet:
data, an empty read, or a fault.  One read takes at most what it is asked for, never goes beyond
one piece of data, and leaves what it did not take.  When nothing is left, every read is empty.

A window is filled by as many reads as it takes.  Filling goes on over interruptions, which cost
nothing, and ends early at an empty read or at any other fault.  So the places where a stream was
cut do not show in the windows filled from it.  They show to those who look on at the reads
(`Source.reads`).
-/

namespace HexDiff

/-- What one read, or several reads of one piece of data, will meet. -/
inductive Event where
  | data (bytes : List UInt8)
  | ended
  | failed (fault : Fault)
  deriving DecidableEq, Repr

/-- The events that a stream has left. -/
abbrev Source := List Event

/-- The outcome of filling: the bytes taken, the fault that ended it if there was one, and what the
stream has left. -/
structure Filling where
  taken : List UInt8
  fault : Option Fault
  rest : Source
  deriving Repr

namespace Source

/-- A stream that delivers some bytes and then ends. -/
def ofBytes (bytes : List UInt8) : Source :=
  [.data bytes]

/-- A stream that delivers some bytes in pieces of `size` bytes and then ends; the last piece may be
shorter. -/
def inPieces (size : Nat) (bytes : List UInt8) : Source :=
  match bytes with
  | [] => []
  | b :: rest => .data (b :: rest.take (size - 1)) :: inPieces size (rest.drop (size - 1))
termination_by bytes.length
decreasing_by
  simp only [List.length_cons, List.length_drop]
  omega

/-- The data bytes that a stream has left. -/
def byteCount : Source → Nat
  | [] => 0
  | .data bytes :: rest => bytes.length + byteCount rest
  | _ :: rest => byteCount rest

/-- Takes up to `room` bytes from a stream. -/
def fill : Nat → Source → Filling
  | 0, source => ⟨[], none, source⟩
  | _ + 1, [] => ⟨[], none, []⟩
  | _ + 1, .data [] :: rest => ⟨[], none, rest⟩
  | room + 1, .data (b :: bytes) :: rest =>
    match bytes.drop room with
    | [] =>
      let more := fill (room - bytes.length) rest
      ⟨b :: bytes ++ more.taken, more.fault, more.rest⟩
    | left => ⟨b :: bytes.take room, none, .data left :: rest⟩
  | _ + 1, .ended :: rest => ⟨[], none, rest⟩
  | room + 1, .failed fault :: rest =>
    if fault.kind = .interrupted then fill (room + 1) rest else ⟨[], some fault, rest⟩

/-- What each of the reads gets by which up to `room` bytes are taken from a stream.  The reads that
are interrupted or fail are left out. -/
def reads : Nat → Source → List (List UInt8)
  | 0, _ => []
  | _ + 1, [] => [[]]
  | _ + 1, .data [] :: _ => [[]]
  | room + 1, .data (b :: bytes) :: rest =>
    (b :: bytes.take room) :: reads (room - bytes.length) rest
  | _ + 1, .ended :: _ => [[]]
  | room + 1, .failed fault :: rest =>
    if fault.kind = .interrupted then reads (room + 1) rest else []

/-- The outcome of filling a buffer: the buffer afterwards, how many of its bytes were filled, the
fault that ended it if there was one, and what the stream has left. -/
structure BlockRead where
  buffer : List UInt8
  filled : Nat
  fault : Option Fault
  rest : Source
  deriving Repr

/-- Fills a buffer from the front.  The bytes behind the filled ones stay as they were. -/
def readBlock (source : Source) (buffer : List UInt8) : BlockRead :=
  let filling := fill buffer.length source
  ⟨filling.taken ++ buffer.drop filling.taken.length, filling.taken.length, filling.fault,
    filling.rest⟩

/-! ### Nothing is lost -/

/-- What is taken and what is left make up what there was. -/
theorem byteCount_fill (room : Nat) (source : Source) :
    (fill room source).taken.length + byteCount (fill room source).rest = byteCount source := by
  fun_induction fill room source with
  | case1 => simp
  | case2 => rfl
  | case3 => simp [byteCount]
  | case4 room b bytes rest h more ih =>
    simp only [byteCount, List.length_append, List.length_cons, more]
    omega
  | case5 room b bytes rest h =>
    simp only [byteCount, List.length_cons, List.length_take, List.length_drop]
    omega
  | case6 => simp [byteCount]
  | case7 room fault rest h ih => simpa [byteCount] using ih
  | case8 => simp [byteCount]

/-- A stream has left what the block read did not fill. -/
theorem byteCount_readBlock (source : Source) (buffer : List UInt8) :
    (source.readBlock buffer).filled + byteCount (source.readBlock buffer).rest =
      byteCount source :=
  byteCount_fill buffer.length source

end Source
end HexDiff
