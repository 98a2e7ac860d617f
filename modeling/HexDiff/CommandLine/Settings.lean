import HexDiff.CommandLine.UsageError
import HexDiff.Layout

/-!
# Settings

What has been given on one level of the command line.  Each value is checked as it is stored: first
that the slot is still free, then the value itself.
-/

namespace HexDiff.CommandLine

/-- What has been given on a level. -/
structure Settings where
  /-- The switches, each once, in the order in which they were last given. -/
  switches : List Switch := []
  /-- How often the verbose switch was given. -/
  verbosity : Nat := 0
  lineLength : Option Nat := none
  offsetWidth : Option Nat := none
  left : Option String := none
  right : Option String := none
  output : Option String := none
  input : Option String := none
  first : Option Nat := none
  last : Option Nat := none
  text : Option String := none
  hex : List String := []
  deriving Repr

/-! ### Values -/

/-- A number from one to a bound. -/
def readBounded (slot : Slot) (bound : Nat) (word : String) : Except UsageError Nat :=
  match Numeral.read 10 Numeral.wordLimit word.toList with
  | .error e => .error (.badValue word slot (.numeral e))
  | .ok n =>
    if 1 ≤ n ∧ n ≤ bound then .ok n else .error (.badValue word slot (.outOfRange n bound))

/-- An offset. -/
def readOffset (slot : Slot) (word : String) : Except UsageError Nat :=
  (HexOffset.read word).mapError fun e => .badValue word slot (.offset e)

/-- A path that is not empty. -/
def readPath (slot : Slot) (word : String) : Except UsageError String :=
  if word.isEmpty then .error (.valueMissing slot) else .ok word

namespace Settings

/-- The longest line that can be asked for. -/
def maxLineLength : Nat := 4096

/-- Whether a switch is on. -/
def has (s : Settings) (switch : Switch) : Bool :=
  switch ∈ s.switches

/-- Turns a switch on.  Only the verbose switch may be given again. -/
def turnOn (s : Settings) (switch : Switch) : Except UsageError Settings :=
  if switch = .verbose then
    .ok
      { s with
        switches := s.switches.filter (· ≠ .verbose) ++ [.verbose]
        verbosity := s.verbosity + 1 }
  else if s.has switch then .error (.repeated (.switch switch))
  else .ok { s with switches := s.switches ++ [switch] }

/-- Refuses a slot that is taken already. -/
def free {α : Type} (slot : Slot) (held : Option α) : Except UsageError Unit :=
  if held.isSome then .error (.repeated (.valued slot)) else .ok ()

/-- Stores a value. -/
def store (s : Settings) (slot : Slot) (word : String) : Except UsageError Settings :=
  match slot with
  | .lineLength => do
    free slot s.lineLength
    return { s with lineLength := some (← readBounded slot maxLineLength word) }
  | .offsetWidth => do
    free slot s.offsetWidth
    return { s with offsetWidth := some (← readBounded slot Layout.maxOffsetWidth word) }
  | .left => do
    free slot s.left
    return { s with left := some (← readPath slot word) }
  | .right => do
    free slot s.right
    return { s with right := some (← readPath slot word) }
  | .output | .outputOption => do
    free slot s.output
    return { s with output := some (← readPath slot word) }
  | .input => do
    free slot s.input
    return { s with input := some (← readPath slot word) }
  | .first => do
    free slot s.first
    return { s with first := some (← readOffset slot word) }
  | .last => do
    free slot s.last
    return { s with last := some (← readOffset slot word) }
  | .text => do
    free slot s.text
    return { s with text := some word }
  | .hex => return { s with hex := s.hex ++ [word] }

/-- Refuses switches that exclude each other.  The one given first is named first. -/
def checkConflict (s : Settings) : Except UsageError Unit :=
  match s.switches.filter fun switch => switch = .quiet || switch = .verbose with
  | [first, second] => .error (.conflict first second)
  | _ => .ok ()

/-- The layout that has been asked for. -/
def layout (s : Settings) : Layout where
  lineLength := s.lineLength.getD ({} : Layout).lineLength
  offsetWidth := s.offsetWidth.getD ({} : Layout).offsetWidth
  overlays :=
    { screenCode := s.has .screenCode
      base40 := s.has .base40
      base40Odd := s.has .base40Odd
      ascii := s.has .ascii }

end Settings
end HexDiff.CommandLine
