import HexDiff.CommandLine.Outcome

/-!
# The program

Collects the files that the command line names, performs it, and brings the result to the outside.
-/

namespace HexDiff.Program

open CommandLine

/-- The path of a location. -/
def pathOf (location : Location) : String :=
  "/" ++ String.ofList (['/'].intercalate location)

/-- What is found at a location. -/
def probe (location : Location) : IO (Option Node) := do
  let place := (← IO.currentDir) / pathOf location
  if ← place.isDir then return some .directory
  try return some (.file (← IO.FS.readBinFile place).data.toList)
  catch _ => return none

/-- What is found on the way of some paths. -/
def survey (paths : List String) : IO FileTree := do
  let here ← IO.currentDir
  let empty : FileTree :=
    { current := (here.toString.toList.splitOn '/').filter fun name => !name.isEmpty }
  let locations := (paths.flatMap empty.route).eraseDups
  locations.foldlM (fun tree location => do
    match ← probe location with
    | some node => return tree.put location node
    | none => return tree) empty

/-- The paths that a command line names. -/
def pathsOf (words : List String) : List String :=
  match CommandLine.read words with
  | .ok invocation => invocation.command.paths
  | .error _ => []

end HexDiff.Program

open HexDiff in
/-- Runs the program on the words of the command line. -/
def main (words : List String) : IO UInt32 := do
  let tree ← Program.survey (Program.pathsOf words)
  let outcome := CommandLine.run ⟨tree, ← IO.getEnv "RUST_LOG"⟩ words
  for (location, content) in tree.changes outcome.tree do
    IO.FS.writeBinFile (Program.pathOf location) ⟨content.toArray⟩
  let output ← IO.getStdout
  output.write ⟨outcome.printed⟩
  output.flush
  IO.eprint outcome.messages
  return outcome.status.toUInt32
