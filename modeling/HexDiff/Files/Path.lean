import HexDiff.Files.Tree
import HexDiff.Stream.Fault
import HexDiff.Text.Utf8

/-!
# Paths

A path is read segment by segment, from the root if it begins with a slash and otherwise from the
current directory.  An empty segment or a single dot stays where it is, two dots go up, and any
other segment is a name.  Each segment needs a directory to be followed from, so that also a slash
at the end says that a directory is meant.  Names and paths have a greatest length, in bytes.

A path finds what is there (`find`), or a place for a new file (`create`).  A file that is created
where one exists takes its place, with no content.
-/

namespace HexDiff.FileTree

/-- The most bytes that a name may have. -/
def maxNameLength : Nat := 255

/-- The most bytes that a path may have. -/
def maxPathLength : Nat := 4095

/-- Whether a name has more bytes than it may have. -/
def isTooLong (name : Name) : Bool :=
  maxNameLength < (utf8 name).length

/-- What keeps a text from being a path. -/
def refusal? (path : List Char) : Option Fault :=
  if '\x00' ∈ path then some .badName
  else if maxPathLength < (utf8 path).length then some .nameTooLong
  else if path = [] then some .notFound
  else none

/-- Where a segment leads from a directory. -/
def follow (location : Location) (segment : Name) : Location :=
  if segment = [] ∨ segment = ['.'] then location
  else if segment = ['.', '.'] then location.dropLast
  else location ++ [segment]

/-- Where some segments lead. -/
def walk (tree : FileTree) (location : Location) : List Name → Except Fault Location
  | [] => .ok location
  | segment :: rest =>
    match tree.node? location with
    | some .directory =>
      if isTooLong segment then .error .nameTooLong
      else tree.walk (follow location segment) rest
    | some (.file _) => .error .notADirectory
    | none => .error .notFound

/-- Where a path starts. -/
def start (tree : FileTree) (path : List Char) : Location :=
  if path.head? = some '/' then [] else tree.current

/-- The places that a path passes, its start and its end included. -/
def route (tree : FileTree) (path : String) : List Location :=
  (path.toList.splitOn '/').foldl (fun passed segment =>
    passed ++ [follow (passed.getLastD []) segment]) [tree.start path.toList]

/-- What a path leads to, and where it is.  The empty path leads nowhere. -/
def find (tree : FileTree) (path : String) : Except Fault (Location × Node) :=
  match refusal? path.toList with
  | some fault => .error fault
  | none =>
    match tree.walk (tree.start path.toList) (path.toList.splitOn '/') with
    | .error fault => .error fault
    | .ok location =>
      match tree.node? location with
      | some node => .ok (location, node)
      | none => .error .notFound

/-- Whether a path leads to anything. -/
def contains (tree : FileTree) (path : String) : Bool :=
  (tree.find path).isOk

/-- The place of a file to be created.  It has to have a name within an existing directory, and
must not be a directory itself, nor be meant as one by a slash at the end. -/
def place (tree : FileTree) (path : String) : Except Fault Location :=
  match refusal? path.toList with
  | some fault => .error fault
  | none =>
    let backwards := (path.toList.splitOn '/').reverse
    match backwards.dropWhile (· = []) with
    | [] => .error .isADirectory
    | name :: before =>
      match tree.walk (tree.start path.toList) (before.reverse ++ [[]]) with
      | .error fault => .error fault
      | .ok parent =>
        let location := parent ++ [name]
        if name = ['.'] ∨ name = ['.', '.'] ∨ backwards.head? = some [] ∨
            tree.node? location = some .directory then
          .error .isADirectory
        else if isTooLong name then .error .nameTooLong
        else .ok location

/-- Creates an empty file; also says where it is. -/
def create (tree : FileTree) (path : String) : Except Fault (Location × FileTree) :=
  match tree.place path with
  | .error fault => .error fault
  | .ok location => .ok (location, tree.put location (.file []))

end HexDiff.FileTree
