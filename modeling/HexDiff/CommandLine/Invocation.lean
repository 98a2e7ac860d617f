import HexDiff.CommandLine.Settings

/-!
# Invocations

What a command line asks for, once it has been read.
-/

namespace HexDiff.CommandLine

/-- What may be asked for with every command. -/
structure Common where
  /-- Existing outputs may be overwritten. -/
  force : Bool := false
  /-- Nothing but errors is told. -/
  quiet : Bool := false
  /-- Statistics are told. -/
  json : Bool := false
  /-- How much is told besides. -/
  verbosity : Nat := 0
  deriving DecidableEq, Repr

/-- A command with its arguments.  An output without a path is standard output. -/
inductive Command where
  | diff (layout : Layout) (left right : String) (output : Option String)
  | dump (layout : Layout) (input : String) (first : Nat) (last : Option Nat)
      (output : Option String)
  | encode (codec : Codec) (text : String)
  | decode (codec : Codec) (pieces : List String)
  | config
  deriving DecidableEq, Repr

/-- A command line, read. -/
structure Invocation where
  common : Common
  command : Command
  deriving DecidableEq, Repr

/-- The paths that a command looks at. -/
def Command.paths : Command → List String
  | diff _ left right output => left :: right :: output.toList
  | dump _ input _ _ output => input :: output.toList
  | _ => []

/-- The path to which a command writes. -/
def Command.output : Command → Option String
  | diff _ _ _ output => output
  | dump _ _ _ _ output => output
  | _ => none

namespace Settings

/-- The common part of what was given on a level. -/
def common (s : Settings) : Common where
  force := s.has .force
  quiet := s.has .quiet
  json := s.has .json
  verbosity := s.verbosity

/-- The path of the output.  A dash is standard output. -/
def outputPath (s : Settings) : Option String :=
  s.output.filter (· ≠ "-")

/-- The command of a level, unless a slot that has to be filled is empty.  A level with commands of
its own is none. -/
def command? (s : Settings) : Level → Option Command
  | .diff => do return .diff s.layout (← s.left) (← s.right) s.outputPath
  | .dump => do return .dump s.layout (← s.input) (s.first.getD 0) s.last s.outputPath
  | .encode c => do return .encode c (← s.text)
  | .decode c => if s.hex.isEmpty then none else some (.decode c s.hex)
  | .config => some .config
  | .program | .codec _ => none

end Settings

/-- What is asked for when a level and a deeper one say something.  The deeper one decides how much
is told, if it says anything about it. -/
def Common.within (outer inner : Common) : Common where
  force := outer.force || inner.force
  quiet := outer.quiet || inner.quiet
  json := outer.json || inner.json
  verbosity := if inner.verbosity = 0 then outer.verbosity else inner.verbosity

end HexDiff.CommandLine
