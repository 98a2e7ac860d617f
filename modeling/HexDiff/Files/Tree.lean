/-!
# File trees

A file tree is the files and directories that a program finds, each under the names that lead to it
from the root.  The root itself is always a directory.  A tree is known by what `node?` says of
each location; the order of its entries tells nothing.
-/

namespace HexDiff

/-- A name within a directory. -/
abbrev Name := List Char

/-- The names that lead from the root to a place. -/
abbrev Location := List Name

/-- What may be found at a place. -/
inductive Node where
  | file (content : List UInt8)
  | directory
  deriving DecidableEq, Repr

/-- The bytes of a file. -/
def Node.content? : Node → Option (List UInt8)
  | .file content => some content
  | .directory => none

/-- Files and directories, and the directory from which paths start. -/
structure FileTree where
  entries : List (Location × Node) := []
  current : Location := []
  deriving Repr

namespace FileTree

/-- What is found at a location. -/
def node? (tree : FileTree) (location : Location) : Option Node :=
  if location = [] then some .directory
  else (tree.entries.find? (·.1 = location)).map (·.2)

/-- The content of the file at a location. -/
def content? (tree : FileTree) (location : Location) : Option (List UInt8) :=
  (tree.node? location).bind Node.content?

/-- Puts something at a location, in place of what was there. -/
def put (tree : FileTree) (location : Location) (node : Node) : FileTree :=
  { tree with entries := (location, node) :: tree.entries.filter (·.1 ≠ location) }

@[simp]
theorem node?_root (tree : FileTree) : tree.node? [] = some .directory := by
  simp [node?]

/-- What was put is found again. -/
theorem node?_put_self (tree : FileTree) {location : Location} (node : Node)
    (h : location ≠ []) : (tree.put location node).node? location = some node := by
  simp [node?, put, h]

/-- All else is found as before. -/
theorem node?_put_of_ne (tree : FileTree) {location other : Location} (node : Node)
    (h : other ≠ location) : (tree.put location node).node? other = tree.node? other := by
  simp only [node?, put]
  split
  · rfl
  · rw [List.find?_cons_of_neg (by simp [h.symm]), List.find?_filter]
    congr 2
    funext entry
    by_cases he : entry.1 = other <;> simp [he, h]

/-! ### Building trees -/

/-- The locations on the way to a place, that of the place included. -/
def waysTo : Location → List Location
  | [] => []
  | name :: rest => [name] :: (waysTo rest).map (name :: ·)

/-- Adds a directory where there is nothing. -/
def ensureDirectory (tree : FileTree) (location : Location) : FileTree :=
  if (tree.node? location).isSome then tree else tree.put location .directory

/-- Adds a directory and those on the way to it. -/
def addDirectory (tree : FileTree) (location : Location) : FileTree :=
  (waysTo location).foldl ensureDirectory tree

/-- Adds a file and the directories on the way to it. -/
def addFile (tree : FileTree) (location : Location) (content : List UInt8) : FileTree :=
  (tree.addDirectory location.dropLast).put location (.file content)

/-! ### Comparing trees -/

/-- The files of a later tree that are new or have other contents than before. -/
def changes (before after : FileTree) : List (Location × List UInt8) :=
  after.entries.filterMap fun entry =>
    match entry.2 with
    | .file content =>
      if before.content? entry.1 = some content then none else some (entry.1, content)
    | .directory => none

end FileTree
end HexDiff
