import HexDiff.Files.Report

/-!
# Summaries

The statistics of a command as a JSON object, one member to a line, in the alphabetical order of the
names.  The texts in it are words and digests, in which nothing has to be escaped.
-/

namespace HexDiff.CommandLine

/-- A value of a summary. -/
inductive SummaryValue where
  | number (n : Nat)
  | text (s : String)
  | absent
  deriving DecidableEq, Repr

/-- A value as JSON. -/
def SummaryValue.render : SummaryValue → String
  | number n => toString n
  | text s => "\"" ++ s ++ "\""
  | absent => "null"

/-- The names and values of a summary. -/
abbrev Summary := List (String × SummaryValue)

namespace Summary

/-- A member as JSON. -/
def renderMember (entry : String × SummaryValue) : String :=
  "  \"" ++ entry.1 ++ "\": " ++ entry.2.render

/-- A summary that has members as JSON, with a line break after it. -/
def render (summary : Summary) : String :=
  "\x7b\n" ++ ",\n".intercalate (summary.map renderMember) ++ "\n\x7d\n"

/-- The summary of a comparison. -/
def ofFileStats (layout : Layout) (s : FileStats) : Summary :=
  [("blocks", .number s.stats.blocks),
    ("command", .text "diff"),
    ("differing_blocks", .number s.stats.differingBlocks),
    ("differing_bytes", .number s.stats.differingBytes),
    ("left_sha256", .text (Hex.digest s.leftDigest)),
    ("left_size", .number s.stats.leftLength),
    ("line_length", .number layout.lineLength),
    ("right_sha256", .text (Hex.digest s.rightDigest)),
    ("right_size", .number s.stats.rightLength)]

/-- The summary of a dump. -/
def ofLines (first : Nat) (last : Option Nat) (lines : Nat) : Summary :=
  [("begin", .number first),
    ("command", .text "dump"),
    ("end", (last.map .number).getD .absent),
    ("lines", .number lines)]

end Summary
end HexDiff.CommandLine
