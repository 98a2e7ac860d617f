import HexDiff.Log
import HexDiff.Text.Blank
import HexDiff.Text.PatternSyntax
import HexDiff.Text.Utf8

/-!
# Which log entries are shown

A filter has rules and perhaps a pattern.  A rule says up to which detail entries are shown: all of
them, or those whose source has a name with some beginning.  Of the rules for an entry the one with
the longest beginning decides, and of those as long the last one; an entry without a rule is not
shown.  Where there is a pattern, it also has to occur in the message.

A filter is asked for by a text such as `warn,part=debug/pattern`: rules between commas, and after a
slash the pattern.  What cannot be understood of it is told and left out.
-/

namespace HexDiff

/-- A rule on the entries from a part of the program. -/
structure LogRule where
  /-- The beginning that the name of a source must have; none for all entries. -/
  part : Option (List Char)
  /-- The greatest detail that is shown. -/
  detail : Nat
  deriving DecidableEq, Repr

namespace LogRule

/-- How closely a rule names what it is for. -/
def closeness (rule : LogRule) : Nat :=
  (rule.part.map fun part => (utf8 part).length).getD 0

/-- Whether a rule is for an entry. -/
def isFor (rule : LogRule) (entry : LogEntry) : Bool :=
  rule.part.all fun part => part.isPrefixOf entry.source.toList

end LogRule

/-- What decides which entries are shown. -/
structure LogFilter where
  rules : List LogRule
  /-- What has to occur in the message of an entry. -/
  pattern : Option Pattern := none
  deriving DecidableEq, Repr

/-- What cannot be understood of a request for a filter. -/
inductive LogRequestFault where
  /-- More than one slash. -/
  | manySlashes (request : List Char)
  /-- A rule, or the detail of one. -/
  | rule (text : List Char)
  | pattern (text : List Char) (e : PatternError)
  deriving DecidableEq, Repr

/-- The wording of what cannot be understood. -/
def LogRequestFault.message : LogRequestFault → String
  | manySlashes request => s!"invalid logging spec '{String.ofList request}' (too many '/'s)"
  | rule text => s!"invalid logging spec '{String.ofList text}'"
  | pattern text e => "invalid regex filter - " ++ e.message (String.ofList text)

namespace LogFilter

/-- The filter for all entries up to some detail. -/
def upTo (detail : Nat) : LogFilter where
  rules := [⟨none, detail⟩]

/-! ### Deciding -/

/-- Of two rules the one that decides, where `later` was given after `rule`. -/
def closer (rule : Option LogRule) (later : LogRule) : Option LogRule :=
  match rule with
  | none => some later
  | some rule => if rule.closeness ≤ later.closeness then some later else some rule

/-- The rule that decides on an entry. -/
def ruleFor? (filter : LogFilter) (entry : LogEntry) : Option LogRule :=
  (filter.rules.filter (·.isFor entry)).foldl closer none

/-- Whether an entry is shown. -/
def shows (filter : LogFilter) (entry : LogEntry) : Bool :=
  ((filter.ruleFor? entry).any fun rule => entry.level.detail ≤ rule.detail) &&
    filter.pattern.all fun p => p.occursIn entry.message.toList

/-! ### Reading -/

/-- The detail that a word stands for, in letters of either case. -/
def detail? (word : List Char) : Option Nat :=
  let name := (String.ofList word).toUpper
  if name = "OFF" then some 0
  else
    let levels : List LogLevel := [.error, .warn, .info, .debug, .trace]
    (levels.find? (·.name = name)).map LogLevel.detail

/-- A rule.  Without a detail all entries of a part are shown; a word alone that is a detail is a
rule for all entries. -/
def readRule (text : List Char) : Except LogRequestFault LogRule :=
  match text.splitOn '=' with
  | [word] =>
    match detail? word with
    | some detail => .ok ⟨none, detail⟩
    | none => .ok ⟨some word, LogLevel.trace.detail⟩
  | [part, rest] =>
    let word := trimBlanks rest
    if word = [] then .ok ⟨some part, LogLevel.trace.detail⟩
    else
      match detail? word with
      | some detail => .ok ⟨some part, detail⟩
      | none => .error (.rule word)
  | _ => .error (.rule text)

/-- Adds a rule; it takes the place of one that is for the same part. -/
def addRule (rules : List LogRule) (rule : LogRule) : List LogRule :=
  if rules.any (·.part = rule.part) then
    rules.map fun r => if r.part = rule.part then rule else r
  else rules ++ [rule]

/-- The rules of a request, and what cannot be understood of them. -/
def readRules (text : List Char) : List LogRule × List LogRequestFault :=
  let texts := ((text.splitOn ',').map trimBlanks).filter (· ≠ [])
  texts.foldl (fun (rules, faults) text =>
    match readRule text with
    | .ok rule => (addRule rules rule, faults)
    | .error fault => (rules, faults ++ [fault])) ([], [])

/-- The filter with some rules.  If there is none, errors are shown. -/
def ofRules (rules : List LogRule) (pattern : Option Pattern) : LogFilter where
  rules := if rules = [] then [⟨none, LogLevel.error.detail⟩] else rules
  pattern

/-- The filter that is asked for, and what cannot be understood of the request. -/
def read (request : String) : LogFilter × List LogRequestFault :=
  match request.toList.splitOn '/' with
  | [] => (ofRules [] none, [])
  | [rulesText] =>
    let (rules, faults) := readRules rulesText
    (ofRules rules none, faults)
  | [rulesText, patternText] =>
    let (rules, faults) := readRules rulesText
    match Pattern.read (String.ofList patternText) with
    | .ok pattern => (ofRules rules (some pattern), faults)
    | .error e => (ofRules rules none, faults ++ [.pattern patternText e])
  | _ => (ofRules [] none, [.manySlashes request.toList])

end LogFilter
end HexDiff
