import HexDiff.CommandLine.Reading
import HexDiff.CommandLine.Summary
import HexDiff.LogFilter
import HexDiff.ScreenCode
import HexDiff.Text.HexBytes

/-!
# Performing a command line

From the words of a command line and the files around it to everything that can be seen of the
program: its exit status, what it prints on standard output and standard error, and the files
afterwards.  The status is 0 for success, 1 for a failure, and 2 for a command line that is refused.

An output that exists is only overwritten if that was asked for; this is looked at before all else.
-/

namespace HexDiff.CommandLine

/-- What the program finds. -/
structure Environment where
  tree : FileTree
  /-- Which log entries the environment asks for. -/
  logRequest : Option String := none

/-- What can be seen of the program. -/
structure Outcome where
  status : UInt8
  printed : Array UInt8 := #[]
  messages : String := ""
  tree : FileTree

namespace Outcome

/-- A failure, with nothing done. -/
def failed (tree : FileTree) (message : String) : Outcome where
  status := 1
  messages := "blockdiff: " ++ message ++ "\n"
  tree

/-- A success that prints a line and touches no file. -/
def printing (tree : FileTree) (line : String) : Outcome where
  status := 0
  printed := (line ++ "\n").toUTF8.data
  tree

end Outcome

/-! ### The log -/

/-- The detail of the log where the environment does not ask for one. -/
def Common.logDetail (common : Common) : Nat :=
  if common.quiet then LogLevel.error.detail
  else
    match common.verbosity with
    | 0 => LogLevel.warn.detail
    | 1 => LogLevel.info.detail
    | _ => LogLevel.debug.detail

/-- What decides which entries are logged, and what cannot be understood of the request for it.
What the environment asks for comes first. -/
def logFilter (request : Option String) (common : Common) : LogFilter × List LogRequestFault :=
  match request with
  | some text => LogFilter.read text
  | none => (LogFilter.upTo common.logDetail, [])

/-- A fault of the request, as a line. -/
def warningLine (fault : LogRequestFault) : String :=
  "warning: " ++ fault.message ++ ", ignoring it\n"

/-- An entry as a line, the names of the levels in a column of five. -/
def logLine (entry : LogEntry) : String :=
  let name := entry.level.name
  let gap := String.ofList (List.replicate (5 - name.length) ' ')
  "[" ++ name ++ gap ++ "] " ++ entry.message ++ "\n"

/-- The entries that are shown, as lines. -/
def logText (filter : LogFilter) (entries : Array LogEntry) : String :=
  String.join ((entries.toList.filter filter.shows).map logLine)

/-! ### Commands -/

namespace Codec

/-- Encodes a text. -/
def encode (codec : Codec) (text : String) : Except String (List UInt8) :=
  match codec with
  | base40 => (Base40.Alphabet.standard.encode text).mapError (·.message)
  | screenCode => (ScreenCode.encode text).mapError (·.message)

/-- Decodes bytes. -/
def decode (codec : Codec) (bytes : List UInt8) : Except String String :=
  match codec with
  | base40 => (Base40.Alphabet.standard.decode bytes).mapError (·.message)
  | screenCode => .ok (ScreenCode.decode bytes)

end Codec

/-- What the program tells about itself. -/
def configLines : List String :=
  let layout : Layout := {}
  ["blockdiff version 0.1.0 (Rust)",
    "FILE_IO=1",
    s!"DEFAULT_LINE_LENGTH={layout.lineLength}",
    s!"DEFAULT_OFFSET_WIDTH={layout.offsetWidth}",
    s!"MAX_OFFSET_WIDTH={Layout.maxOffsetWidth}",
    s!"BASE40_MAX_WORD={Base40.maxWord.toNat}"]

/-- The outcome of a report on files, with the log and, on success, the lines that `tell` adds. -/
def Outcome.ofFileRun {α : Type} (run : FileRun α) (filter : LogFilter) (tell : α → String) :
    Outcome where
  status := if run.outcome.isOk then 0 else 1
  printed := run.printed
  messages :=
    logText filter run.log ++
      match run.outcome with
      | .ok a => tell a
      | .error e => "blockdiff: " ++ e.message ++ "\n"
  tree := run.tree

namespace Invocation

/-- Compares two files. -/
def performDiff (common : Common) (filter : LogFilter) (tree : FileTree) (layout : Layout)
    (left right : String) (output : Option String) : Outcome :=
  let tell (s : FileStats) : String :=
    (if common.quiet then "" else logText filter #[.filesCompared s.stats]) ++
      if common.json then (Summary.ofFileStats layout s).render else ""
  Outcome.ofFileRun (diffFiles tree layout left right output) filter tell

/-- Dumps a file. -/
def performDump (common : Common) (filter : LogFilter) (tree : FileTree) (layout : Layout)
    (input : String) (first : Nat) (last : Option Nat) (output : Option String) : Outcome :=
  let tell (lines : Nat) : String :=
    if common.json then (Summary.ofLines first last lines).render else ""
  Outcome.ofFileRun (dumpFile tree layout input first last output) filter tell

/-- The output that must not be overwritten, if there is one. -/
def protectedOutput (invocation : Invocation) (tree : FileTree) : Option String :=
  if invocation.common.force then none else invocation.command.output.filter (tree.contains ·)

/-- Performs what has been asked for, with some log. -/
def performWith (invocation : Invocation) (filter : LogFilter) (tree : FileTree) : Outcome :=
  match invocation.protectedOutput tree with
  | some path => .failed tree s!"output file exists, use -f to overwrite: {path}"
  | none =>
    match invocation.command with
    | .diff layout left right output =>
      performDiff invocation.common filter tree layout left right output
    | .dump layout input first last output =>
      performDump invocation.common filter tree layout input first last output
    | .encode codec text =>
      match codec.encode text with
      | .ok bytes => .printing tree (Hex.spaced bytes)
      | .error message => .failed tree s!"{codec.word} encode: {message}"
    | .decode codec pieces =>
      match HexBytes.read pieces with
      | .error e => .failed tree e.message
      | .ok bytes =>
        match codec.decode bytes with
        | .ok text => .printing tree text
        | .error message => .failed tree s!"{codec.word} decode: {message}"
    | .config =>
      { status := 0, messages := String.join (configLines.map (· ++ "\n")), tree }

/-- Performs what has been asked for.  Before all else it tells what it cannot understand of what
the environment asks for. -/
def perform (invocation : Invocation) (env : Environment) : Outcome :=
  let (filter, faults) := logFilter env.logRequest invocation.common
  let outcome := invocation.performWith filter env.tree
  { outcome with messages := String.join (faults.map warningLine) ++ outcome.messages }

end Invocation

/-- The outcome where there is nothing to perform. -/
def Stop.toOutcome (stop : Stop) (tree : FileTree) : Outcome :=
  match stop with
  | .refused e => { status := 2, messages := e.text, tree }
  | .help level => { status := 0, printed := level.help.toUTF8.data, tree }
  | .version => .printing tree "blockdiff 0.1.0"

/-- Reads and performs a command line. -/
def run (env : Environment) (words : List String) : Outcome :=
  match read words with
  | .ok invocation => invocation.perform env
  | .error stop => stop.toOutcome env.tree

end HexDiff.CommandLine
