/-!
# Faults

What a stream or a file reports instead of doing what it was asked for.
-/

namespace HexDiff

/-- The kind of a fault. -/
inductive FaultKind where
  | interrupted
  | wouldBlock
  | timedOut
  | unexpectedEof
  | brokenPipe
  | writeZero
  | notFound
  | isADirectory
  | notADirectory
  | nameTooLong
  | badName
  | invalidData
  | other
  deriving DecidableEq, Repr

/-- A fault and its wording. -/
structure Fault where
  kind : FaultKind
  text : String
  deriving DecidableEq, Repr

namespace Fault

/-- A full output that takes nothing of what is left. -/
def writeZero : Fault := ⟨.writeZero, "failed to write whole buffer"⟩

/-- A name that stands for nothing. -/
def notFound : Fault := ⟨.notFound, "No such file or directory (os error 2)"⟩

/-- A file where a directory is needed. -/
def notADirectory : Fault := ⟨.notADirectory, "Not a directory (os error 20)"⟩

/-- A directory where a file is needed. -/
def isADirectory : Fault := ⟨.isADirectory, "Is a directory (os error 21)"⟩

/-- A name or path with more bytes than may be. -/
def nameTooLong : Fault := ⟨.nameTooLong, "File name too long (os error 36)"⟩

/-- A path with a character that no path can have. -/
def badName : Fault := ⟨.badName, "file name contained an unexpected NUL byte"⟩

end Fault
end HexDiff
