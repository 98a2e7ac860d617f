import HexDiff.CommandLine.Grammar
import HexDiff.Text.HexOffset
import HexDiff.Text.Terminal

/-!
# Usage errors

What can be wrong with a command line, whatever the files are.

Objections are worded for a terminal: their heading and the words and labels they name stand out.
So a control sequence in a word ends with the word, but one in the wording of a `ValueError`, which
does not stand out, can reach beyond it.
-/

namespace HexDiff.CommandLine

/-- What can be wrong with a value. -/
inductive ValueError where
  | numeral (e : NumeralError)
  /-- A number that is not between one and the given bound. -/
  | outOfRange (n bound : Nat)
  | offset (e : HexOffsetError)
  deriving DecidableEq, Repr

/-- The wording of an objection to a value. -/
def ValueError.message : ValueError → String
  | .numeral e => e.message
  | .outOfRange n bound => s!"{n} is not in 1..={bound}"
  | .offset e => e.message

/-- What can be wrong with a command line. -/
inductive UsageError where
  /-- A word that is no command of its level. -/
  | unknownCommand (word : String)
  /-- An option that its level does not take, or an argument for which there is no slot left. -/
  | unexpected (argument : String)
  /-- A slot that has to be filled is empty. -/
  | argumentMissing
  /-- Two switches that exclude each other. -/
  | conflict (first second : Switch)
  /-- An option that may be given once was given again. -/
  | repeated (option : Opt)
  /-- A value for an option that takes none. -/
  | valueNotTaken (value : String) (option : Opt)
  /-- An option without its value, or an empty path. -/
  | valueMissing (slot : Slot)
  /-- A value that does not fit its slot. -/
  | badValue (value : String) (slot : Slot) (e : ValueError)
  /-- A level was reached, with options, that needs a command. -/
  | commandMissing (level : Level)
  /-- A level was reached that needs a command, and nothing else was given. -/
  | nothingGiven (level : Level)
  deriving DecidableEq, Repr

/-- A word or label as objections name it. -/
def quoted (word : String) : String :=
  "'" ++ Terminal.highlighted word ++ "'"

/-- The wording of an objection, after its heading.  Where nothing was given, it is what the level
is for. -/
def UsageError.wording : UsageError → String
  | .unknownCommand word => s!"unrecognized subcommand {quoted word}"
  | .unexpected argument => s!"unexpected argument {quoted argument} found"
  | .argumentMissing => "the following required arguments were not provided:"
  | .conflict first second =>
    s!"the argument {quoted first.label} cannot be used with {quoted second.label}"
  | .repeated option => s!"the argument {quoted option.label} cannot be used multiple times"
  | .valueNotTaken value option =>
    s!"unexpected value {quoted value} for {quoted option.label} found; no more were expected"
  | .valueMissing slot => s!"a value is required for {quoted slot.label} but none was supplied"
  | .badValue value slot e =>
    s!"invalid value {quoted value} for {quoted slot.label}: {e.message}"
  | .commandMissing level =>
    s!"{quoted level.title} requires a subcommand but one was not provided"
  | .nothingGiven level => level.purpose

/-- An objection to a command line, with its heading. -/
def UsageError.message (e : UsageError) : String :=
  match e with
  | .nothingGiven _ => e.wording
  | _ => Terminal.highlighted "error:" ++ " " ++ e.wording

/-- What is told besides the objection. -/
def UsageError.advice : UsageError → String
  | .nothingGiven level => level.usage
  | _ => "For more information, try " ++ quoted "--help" ++ "."

/-- All that is told, where it does not go to a terminal. -/
def UsageError.text (e : UsageError) : String :=
  Terminal.plain (e.message ++ "\n\n" ++ e.advice ++ "\n")

end HexDiff.CommandLine
