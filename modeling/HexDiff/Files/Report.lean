import HexDiff.Dump
import HexDiff.Files.Loopback
import HexDiff.Files.Path

/-!
# Reports on files

Comparing two files, and dumping one, with the report going to a file or to standard output.

Everything that can be refused is looked at in a fixed order.  A comparison checks its layout before
it looks for any file, then opens the left file, the right file, and creates the output.  A dump
reads its input first, creates the output next, and checks its layout last, so that a dump with a
bad layout leaves an empty output behind.

A directory can be opened like a file, but not read.

Files are read and written through buffers, so that they come in pieces, and a report goes to its
file in pieces.  The last of these is brought there when the run is over, however it ends.
-/

namespace HexDiff

/-- Why there is no result. -/
inductive FileError where
  /-- A path that could not be opened or created. -/
  | unopened (path : String) (fault : Fault)
  /-- A failure to read an input as a whole. -/
  | unreadable (fault : Fault)
  /-- A comparison or dump that was refused or cut short. -/
  | report (e : ReportError)
  /-- A comparison that reads back its own report for ever. -/
  | endless
  deriving DecidableEq, Repr

/-- The wording of an error. -/
def FileError.message : FileError → String
  | .unopened path fault => s!"{path}: {fault.text}"
  | .unreadable fault => s!"I/O error: {fault.text}"
  | .report e => e.message
  | .endless => "the report feeds its own input"

/-- What a comparison of files tells: the counters, and the digest of what was read on each side. -/
structure FileStats where
  stats : Stats
  leftDigest : List UInt8
  rightDigest : List UInt8
  deriving DecidableEq, Repr

/-- The result of a report on files: the outcome, the files afterwards, what came to standard
output, and the log. -/
structure FileRun (α : Type) where
  outcome : Except FileError α
  tree : FileTree
  printed : Array UInt8 := #[]
  log : Array LogEntry := #[]

/-! ### Inputs and outputs -/

/-- How many bytes are read from a file at once. -/
def bufferSize : Nat := 65536

/-- What there is to read at a place. -/
def Node.source : Node → Source
  | .file content => .inPieces bufferSize content
  | .directory => [.failed .isADirectory]

/-- An opened input. -/
structure Input where
  location : Location
  node : Node

/-- Where a report goes. -/
inductive Target where
  | standard
  | file (location : Location)
  deriving DecidableEq, Repr

namespace FileTree

/-- Opens an input. -/
def openInput (tree : FileTree) (path : String) : Except FileError Input :=
  match tree.find path with
  | .ok (location, node) => .ok ⟨location, node⟩
  | .error fault => .error (.unopened path fault)

/-- Creates an output; without a path, it is standard output. -/
def openOutput (tree : FileTree) (output : Option String) : Except FileError (Target × FileTree) :=
  match output with
  | none => .ok (.standard, tree)
  | some path =>
    match tree.create path with
    | .ok (location, tree') => .ok (.file location, tree')
    | .error fault => .error (.unopened path fault)

end FileTree

/-- A finished report, brought to where it goes. -/
def Target.deliver {α : Type} (target : Target) (tree : FileTree) (outcome : Except FileError α)
    (report : Array UInt8) (log : Array LogEntry) : FileRun α :=
  match target with
  | .standard => { outcome, tree, printed := report, log }
  | .file location => { outcome, tree := tree.put location (.file report.toList), log }

/-- Which of two inputs a report goes to. -/
def Target.loopback (target : Target) (left right : Input) : Loopback where
  left := target = .file left.location
  right := target = .file right.location

/-! ### Comparing -/

/-- A comparison with everything in place. -/
structure Preparation where
  comparer : Comparer
  left : Input
  right : Input
  target : Target
  tree : FileTree

namespace Preparation

/-- Puts everything in place, or says what is refused first. -/
def make (tree : FileTree) (layout : Layout) (left right : String) (output : Option String) :
    Except FileError Preparation := do
  let comparer ← (Comparer.ofLayout? layout).mapError .report
  let left ← tree.openInput left
  let right ← tree.openInput right
  let (target, tree) ← tree.openOutput output
  return { comparer, left, right, target, tree }

/-- Which inputs the report goes to. -/
def loopback (prep : Preparation) : Loopback :=
  prep.target.loopback prep.left prep.right

/-- What comes of a run and of the hashers that looked on. -/
def finish (prep : Preparation) (result : RunResult Spool) (hashing : Hashing) :
    FileRun FileStats :=
  let outcome : Except FileError FileStats :=
    match result.outcome with
    | .ok stats => .ok ⟨stats, hashing.left.digest, hashing.right.digest⟩
    | .error e => .error (.report e)
  prep.target.deliver prep.tree outcome result.output.flush.flushed result.log

/-- The comparison of two inputs neither of which the report goes to. -/
def runApart (prep : Preparation) : FileRun FileStats :=
  let (result, hashing) :=
    prep.comparer.hashedRun prep.left.node.source prep.right.node.source ({} : Spool)
  prep.finish result hashing

/-- The comparison of two inputs one of which the report goes to. -/
def runLooped (prep : Preparation) : FileRun FileStats :=
  match prep.loopback.run prep.comparer prep.left.node.source prep.right.node.source with
  | none => { outcome := .error .endless, tree := prep.tree }
  | some (result, hashing) => prep.finish result hashing

/-- The comparison. -/
def run (prep : Preparation) : FileRun FileStats :=
  if prep.loopback.any then prep.runLooped else prep.runApart

end Preparation

/-- Compares two files. -/
def diffFiles (tree : FileTree) (layout : Layout) (left right : String) (output : Option String) :
    FileRun FileStats :=
  match Preparation.make tree layout left right output with
  | .ok prep => prep.run
  | .error e => { outcome := .error e, tree }

/-! ### Dumping -/

/-- The whole content of a file. -/
def FileTree.readFile (tree : FileTree) (path : String) : Except FileError (List UInt8) :=
  match tree.openInput path with
  | .error e => .error e
  | .ok input =>
    match input.node with
    | .file content => .ok content
    | .directory => .error (.unreadable .isADirectory)

/-- Dumps a range of a file, counting the lines. -/
def dumpFile (tree : FileTree) (layout : Layout) (input : String) (first : Nat) (last : Option Nat)
    (output : Option String) : FileRun Nat :=
  let opened : Except FileError (List UInt8 × Target × FileTree) := do
    let content ← tree.readFile input
    let (target, tree) ← tree.openOutput output
    return (content, target, tree)
  match opened with
  | .error e => { outcome := .error e, tree }
  | .ok (content, target, tree') =>
    let result := Dump.run layout content first last ({} : Spool)
    target.deliver tree' (result.outcome.mapError .report) result.output.flush.flushed result.log

end HexDiff
