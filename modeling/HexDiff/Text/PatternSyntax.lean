import HexDiff.Hex
import HexDiff.Text.Numeral
import HexDiff.Text.Pattern

/-!
# The syntax of patterns

Patterns are written as usual: `.` for any character but a line feed, classes in square brackets,
`^` and `$` for the two ends of the text, `|` between alternatives, parentheses around groups, and
`*`, `+`, `?` and counts in curly brackets for repetitions.  Whether a repetition prefers fewer or
more matches makes no difference to whether there is one.

A pattern is read from left to right and the first thing that is wrong is told, with its place.
Some things are well formed but not offered: the shorthands and properties that need tables of
characters, and letters of either case.  They are objected to only where nothing else is wrong.
-/

namespace HexDiff

/-- What can be wrong with a pattern. -/
inductive PatternFault where
  | groupUnclosed
  | groupUnopened
  | lookAround
  | nameUnclosed
  | nameEmpty
  | nameInvalid
  | flagUnknown
  | flagUnfinished
  | classUnclosed
  | classEscape
  | rangeBound
  | rangeReversed
  | nothingToRepeat
  | countUnclosed
  | countMissing
  | countTooLarge
  | countsReversed
  | escapeUnfinished
  | escapeUnknown
  | backReference
  | hexDigit
  | hexMissing
  | hexNoCharacter
  | shorthand
  | property
  | eitherCase
  | wordEdge
  deriving DecidableEq, Repr

/-- The wording of a fault. -/
def PatternFault.wording : PatternFault → String
  | groupUnclosed => "unclosed group"
  | groupUnopened => "unopened group"
  | lookAround => "look-around, including look-ahead and look-behind, is not supported"
  | nameUnclosed => "unclosed capture group name"
  | nameEmpty => "empty capture group name"
  | nameInvalid => "invalid capture group character"
  | flagUnknown => "unrecognized flag"
  | flagUnfinished => "expected flag but got end of regex"
  | classUnclosed => "unclosed character class"
  | classEscape => "invalid escape sequence found in character class"
  | rangeBound => "invalid range boundary, must be a literal"
  | rangeReversed => "invalid character class range, the start must be <= the end"
  | nothingToRepeat => "repetition operator missing expression"
  | countUnclosed => "unclosed counted repetition"
  | countMissing => "repetition quantifier expects a valid decimal"
  | countTooLarge => "decimal literal invalid"
  | countsReversed => "invalid repetition count range, the start must be <= the end"
  | escapeUnfinished => "incomplete escape sequence, reached end of pattern prematurely"
  | escapeUnknown => "unrecognized escape sequence"
  | backReference => "backreferences are not supported"
  | hexDigit => "hexadecimal literal contains an invalid digit"
  | hexMissing => "hexadecimal literal empty"
  | hexNoCharacter => "hexadecimal literal is not a Unicode scalar value"
  | shorthand =>
    "Unicode-aware Perl class not found (make sure the unicode-perl feature is enabled)"
  | property => "Unicode property not found"
  | eitherCase =>
    "Unicode-aware case insensitivity matching is not available " ++
      "(make sure the unicode-case feature is enabled)"
  | wordEdge => "error building NFA"

/-- A fault and the places of the pattern that it is about: those from `first` up to `stop`. -/
structure PatternError where
  fault : PatternFault
  first : Nat
  stop : Nat
  deriving DecidableEq, Repr

/-- The wording of an objection to a pattern: the pattern with its faulty part marked, and the
fault.  Only an edge of a word is objected to without its place. -/
def PatternError.message (pattern : String) (e : PatternError) : String :=
  if e.fault = .wordEdge then e.fault.wording
  else
    "regex parse error:\n    " ++ pattern ++ "\n    " ++
      String.ofList (List.replicate e.first ' ' ++ List.replicate (max 1 (e.stop - e.first)) '^') ++
      "\nerror: " ++ e.fault.wording

/-- How far a pattern has been read. -/
structure PatternCursor where
  place : Nat
  rest : List Char
  /-- Letters stand for either case. -/
  eitherCase : Bool
  /-- The first thing that is not offered. -/
  notOffered : Option PatternError

/-- What reads a part of a pattern. -/
abbrev PatternReader := StateT PatternCursor (Except PatternError)

namespace PatternReader

/-- The next character. -/
def peek : PatternReader (Option Char) :=
  return (← get).rest.head?

/-- Where the next character stands. -/
def place : PatternReader Nat :=
  return (← get).place

/-- Passes some characters. -/
def skip (count : Nat) : PatternReader Unit :=
  modify fun c => { c with place := c.place + min count c.rest.length, rest := c.rest.drop count }

/-- Passes a word, if it comes next. -/
def skipIf (word : String) : PatternReader Bool := do
  if word.toList.isPrefixOf (← get).rest then
    skip word.length
    return true
  else
    return false

/-- Passes the characters up to the first that is not of some kind. -/
def takeWhile (kind : Char → Bool) : PatternReader (List Char) := do
  let taken := (← get).rest.takeWhile kind
  skip taken.length
  return taken

/-- Objects to what stands from `first` up to `stop`. -/
def object {α : Type} (fault : PatternFault) (first stop : Nat) : PatternReader α :=
  throw ⟨fault, first, stop⟩

/-- Objects unless there is a character. -/
def expectMore (fault : PatternFault) (first stop : Nat) : PatternReader Unit := do
  if (← peek).isNone then object fault first stop

/-- Notes that what stands from `first` up to the next character is not offered. -/
def noteNotOffered (fault : PatternFault) (first : Nat) : PatternReader Unit :=
  modify fun c => { c with notOffered := c.notOffered <|> some ⟨fault, first, c.place⟩ }

/-! ### Escapes -/

/-- What an escape or a single character stands for. -/
inductive Atom where
  | char (c : Char)
  | set (s : CharSet)
  /-- What matches between characters. -/
  | edge (p : Pattern)

/-- The character with a code point that is written in hex. -/
def charOfHex (digits : List Char) (first stop : Nat) : PatternReader Char :=
  let code := digits.foldl (fun n d => n * 16 + (Hex.digitValue? d).getD 0) 0
  if h : code.isValidChar then return Char.ofNatAux code h
  else object .hexNoCharacter first stop

/-- Some hex digits, as many as are wanted. -/
def readHexDigits : Nat → List Char → PatternReader (List Char)
  | 0, read => return read.reverse
  | wanted + 1, read => do
    let here ← place
    match ← peek with
    | none => object .escapeUnfinished here here
    | some c =>
      if (Hex.digitValue? c).isNone then object .hexDigit here (here + 1)
      skip 1
      readHexDigits wanted (c :: read)

/-- A character by its code point: so many hex digits, or any number of them in curly brackets. -/
def readHexChar (digits : Nat) : PatternReader Char := do
  let opened ← place
  if ← skipIf "\x7b" then
    let read ← takeWhile fun c => (Hex.digitValue? c).isSome
    let closed ← place
    match ← peek with
    | none => object .escapeUnfinished opened closed
    | some '\x7d' =>
      skip 1
      if read.isEmpty then object .hexMissing opened (closed + 1)
      charOfHex read (opened + 1) closed
    | some _ => object .hexDigit closed (closed + 1)
  else
    let read ← readHexDigits digits []
    charOfHex read opened (← place)

/-- A property of characters.  None is offered. -/
def readProperty (start : Nat) : PatternReader Atom := do
  let here ← place
  expectMore .escapeUnfinished here here
  if ← skipIf "\x7b" then
    let _ ← takeWhile (· ≠ '\x7d')
    let closed ← place
    expectMore .escapeUnfinished closed closed
  skip 1
  noteNotOffered .property start
  return .set .empty

/-- What a backslash and the characters after it stand for. -/
def readEscape : PatternReader Atom := do
  let start ← place
  skip 1
  match ← peek with
  | none => object .escapeUnfinished start (start + 1)
  | some c =>
    skip 1
    match c with
    | 'x' => return .char (← readHexChar 2)
    | 'u' => return .char (← readHexChar 4)
    | 'U' => return .char (← readHexChar 8)
    | 'p' | 'P' => readProperty start
    | 'd' | 's' | 'w' | 'D' | 'S' | 'W' =>
      noteNotOffered .shorthand start
      return .set .empty
    | 'b' | 'B' | '<' | '>' =>
      noteNotOffered .wordEdge start
      return .edge .nothing
    | 'A' => return .edge .atStart
    | 'z' => return .edge .atEnd
    | 'a' => return .char '\x07'
    | 't' => return .char '\t'
    | 'n' => return .char '\n'
    | 'v' => return .char '\x0b'
    | 'f' => return .char '\x0c'
    | 'r' => return .char '\r'
    | c =>
      if c.isDigit then object .backReference start (start + 2)
      else if 0x80 ≤ c.toNat || c.isAlpha then object .escapeUnknown start (start + 2)
      else return .char c

/-- A character, or what an escape stands for. -/
def readAtom (c : Char) : PatternReader Atom := do
  if c = '\\' then readEscape
  else
    skip 1
    return .char c

/-! ### Classes -/

/-- The sets of ASCII characters that have a name. -/
def namedSet? (name : String) : Option CharSet :=
  let digits := CharSet.range '0' '9'
  let upper := CharSet.range 'A' 'Z'
  let lower := CharSet.range 'a' 'z'
  match name with
  | "alnum" => some (.ofList [digits, upper, lower])
  | "alpha" => some (.ofList [upper, lower])
  | "ascii" => some (.range '\x00' '\x7f')
  | "blank" => some (.ofList [.single '\t', .single ' '])
  | "cntrl" => some (.ofList [.range '\x00' '\x1f', .single '\x7f'])
  | "digit" => some digits
  | "graph" => some (.range '!' '~')
  | "lower" => some lower
  | "print" => some (.range ' ' '~')
  | "punct" => some (.ofList [.range '!' '/', .range ':' '@', .range '[' '\x60', .range '\x7b' '~'])
  | "space" => some (.ofList [.range '\t' '\r', .single ' '])
  | "upper" => some upper
  | "word" => some (.ofList [digits, upper, lower, .single '_'])
  | "xdigit" => some (.ofList [digits, .range 'A' 'F', .range 'a' 'f'])
  | _ => none

/-- A named set between `[:` and `:]`, if that is what comes next; otherwise nothing is passed. -/
def readNamedSet? : PatternReader (Option CharSet) := do
  let before ← get
  if ← skipIf "[:" then
    let negated ← skipIf "^"
    let name ← takeWhile (· ≠ ':')
    if ← skipIf ":]" then
      if let some s := namedSet? (String.ofList name) then
        return some (if negated then .compl s else s)
  set before
  return none

/-- The character at a bound of a range. -/
def boundOf (atom : Atom) (first stop : Nat) : PatternReader Char :=
  match atom with
  | .char c => return c
  | _ => object .rangeBound first stop

/-- A member of a class: a character, a range, or a set.  `start` and `opened` are the two ends of
the opening of the class. -/
def readMember (start opened : Nat) (c : Char) : PatternReader CharSet := do
  let first ← place
  let atom ← readAtom c
  let stop ← place
  expectMore .classUnclosed start opened
  match (← get).rest with
  | '-' :: after =>
    if after.head? ≠ some ']' ∧ after.head? ≠ some '-' then
      skip 1
      match ← peek with
      | none => object .classUnclosed start opened
      | some c' =>
        let first' ← place
        let atom' ← readAtom c'
        let stop' ← place
        let low ← boundOf atom first stop
        let high ← boundOf atom' first' stop'
        if high < low then object .rangeReversed first stop'
        return .range low high
  | _ => pure ()
  match atom with
  | .char c => return .single c
  | .set s => return s
  | .edge _ => object .classEscape first stop

mutual

/-- A class, from its opening bracket on.  Every step passes a character, so a `fuel` as large as
the pattern is enough. -/
def readClass : Nat → PatternReader CharSet
  | 0 => return .empty
  | fuel + 1 => do
    let start ← place
    skip 1
    expectMore .classUnclosed start (← place)
    let negated ← skipIf "^"
    expectMore .classUnclosed start (← place)
    let dashes ← takeWhile (· = '-')
    expectMore .classUnclosed start start
    let bracket ← if dashes.isEmpty then skipIf "]" else pure false
    expectMore .classUnclosed start (← place)
    let members := (dashes ++ if bracket then [']'] else []).map CharSet.single
    let s ← readMembers fuel start (← place) id members
    return if negated then .compl s else s

/-- The members of a class, up to its closing bracket.  `combine` is what is done with them. -/
def readMembers : Nat → Nat → Nat → (CharSet → CharSet) → List CharSet → PatternReader CharSet
  | 0, _, _, _, _ => return .empty
  | fuel + 1, start, opened, combine, members => do
    match ← peek with
    | none => object .classUnclosed start opened
    | some '[' =>
      match ← readNamedSet? with
      | some s => readMembers fuel start opened combine (s :: members)
      | none =>
        let s ← readClass fuel
        readMembers fuel start opened combine (s :: members)
    | some ']' =>
      skip 1
      return combine (.ofList members)
    | some c =>
      let left := combine (.ofList members)
      if ← skipIf "&&" then readMembers fuel start opened left.inter []
      else if ← skipIf "--" then
        readMembers fuel start opened (fun right => left.inter right.compl) []
      else if ← skipIf "~~" then
        readMembers fuel start opened
          (fun right => (left.union right).inter (left.inter right).compl) []
      else
        let s ← readMember start opened c
        readMembers fuel start opened combine (s :: members)

end

/-! ### Groups and repetitions -/

/-- A group that is being read. -/
structure Level where
  /-- Where it was opened. -/
  opened : Nat
  /-- Whether letters stood for either case before it. -/
  eitherCase : Bool
  /-- The alternatives before the present one, the last one first. -/
  alternatives : List Pattern := []
  /-- The present alternative, its end first.  A setting has a place in it but matches nothing. -/
  row : List (Option Pattern) := []

namespace Level

/-- The present alternative. -/
def present (level : Level) : Pattern :=
  (level.row.reverse.filterMap id).foldr .followed .nothing

/-- The pattern of a group. -/
def pattern (level : Level) : Pattern :=
  level.alternatives.foldl (fun p q => .either q p) level.present

/-- Adds to the present alternative. -/
def push (level : Level) (p : Option Pattern) : Level :=
  { level with row := p :: level.row }

/-- Begins another alternative. -/
def nextAlternative (level : Level) : Level :=
  { level with alternatives := level.present :: level.alternatives, row := [] }

end Level

/-- What a repetition at `here` repeats, and the level without it. -/
def repeatedBy (level : Level) (here : Nat) : PatternReader (Pattern × Level) :=
  match level.row with
  | some p :: before => return (p, { level with row := before })
  | _ => object .nothingToRepeat here here

/-- A number, between blanks if one likes. -/
def readCount : PatternReader (Except PatternError Nat) := do
  let _ ← takeWhile (·.isWhitespace)
  let first ← place
  let digits ← takeWhile (·.isDigit)
  let stop ← place
  let _ ← takeWhile (·.isWhitespace)
  if digits.isEmpty then return .error ⟨.countMissing, first, stop⟩
  match Numeral.read 10 0x100000000 digits with
  | .ok n => return .ok n
  | .error _ => object .countTooLarge first stop

/-- The bounds of a counted repetition, from its opening bracket on. -/
def readCounts : PatternReader (Nat × Option Nat) := do
  let start ← place
  skip 1
  expectMore .countUnclosed start (← place)
  let least ← readCount
  expectMore .countUnclosed start (← place)
  let counts ←
    if ← skipIf "," then
      expectMore .countUnclosed start (← place)
      if (← peek) = some '\x7d' then
        pure (← liftExcept least, none)
      else
        let least ← liftExcept least
        let most ← liftExcept (← readCount)
        pure (least, some most)
    else
      let n ← liftExcept least
      pure (n, some n)
  if !(← skipIf "\x7d") then object .countUnclosed start (← place)
  let _ ← skipIf "?"
  if counts.2.any (· < counts.1) then object .countsReversed start (← place)
  return counts
where
  liftExcept (e : Except PatternError Nat) : PatternReader Nat :=
    match e with
    | .ok n => return n
    | .error e => throw e

/-- The settings of a group, up to the colon or the closing parenthesis after them.  Only the one
for letters of either case makes a difference. -/
def readSettings : Nat → Bool → PatternReader Unit
  | 0, _ => return ()
  | fuel + 1, on => do
    let here ← place
    match ← peek with
    | none => object .flagUnfinished here here
    | some ':' | some ')' => return ()
    | some '-' =>
      skip 1
      readSettings fuel false
    | some c =>
      if c ∉ ['i', 'm', 's', 'U', 'u', 'R', 'x'] then object .flagUnknown here (here + 1)
      if c = 'i' then modify fun s => { s with eitherCase := on }
      skip 1
      readSettings fuel on

/-- The name of a group, up to the bracket after it. -/
def readGroupName : PatternReader Unit := do
  let first ← place
  let name ← takeWhile (· ≠ '>')
  let stop ← place
  let allowed (c : Char) (i : Nat) : Bool :=
    c.isAlpha || c = '_' || (i ≠ 0 && (c.isDigit || c = '.' || c = '[' || c = ']'))
  match name.zipIdx.find? fun (c, i) => !allowed c i with
  | some (_, i) => object .nameInvalid (first + i) (first + i + 1)
  | none =>
    expectMore .nameUnclosed stop stop
    if name.isEmpty then object .nameEmpty first first
    skip 1

/-- Opens a group, or changes the settings of the present one. -/
def openGroup (outer : List Level) (level : Level) : PatternReader (List Level × Level) := do
  let start ← place
  let eitherCase := (← get).eitherCase
  skip 1
  let inner ← place
  if ← skipIf "?=" <||> skipIf "?!" <||> skipIf "?<=" <||> skipIf "?<!" then
    object .lookAround start (← place)
  let opened := (level :: outer, { opened := start, eitherCase })
  if ← skipIf "?P<" <||> skipIf "?<" then
    readGroupName
    return opened
  else if ← skipIf "?" then
    expectMore .groupUnclosed start (start + 1)
    let first ← place
    readSettings ((← get).rest.length + 1) true
    if ← skipIf ")" then
      if (← place) = first + 1 then object .nothingToRepeat inner inner
      return (outer, level.push none)
    skip 1
    return opened
  else
    return opened

/-- A pattern, from some point on.  Every step passes a character, so a `fuel` as large as the
pattern is enough. -/
def readFrom : Nat → List Level → Level → PatternReader Pattern
  | 0, _, level => return level.pattern
  | fuel + 1, outer, level => do
    let here ← place
    let repeating (least : Nat) (most : Option Nat) : PatternReader Level := do
      let (p, before) ← repeatedBy level here
      skip 1
      let _ ← skipIf "?"
      return before.push (some (.repeated p least most))
    match ← peek with
    | none =>
      if outer.isEmpty then return level.pattern
      else object .groupUnclosed level.opened (level.opened + 1)
    | some '(' =>
      let (outer, level) ← openGroup outer level
      readFrom fuel outer level
    | some ')' =>
      match outer with
      | [] => object .groupUnopened here (here + 1)
      | parent :: outer =>
        skip 1
        modify fun s => { s with eitherCase := level.eitherCase }
        readFrom fuel outer (parent.push (some level.pattern))
    | some '|' =>
      skip 1
      readFrom fuel outer level.nextAlternative
    | some '?' => readFrom fuel outer (← repeating 0 (some 1))
    | some '*' => readFrom fuel outer (← repeating 0 none)
    | some '+' => readFrom fuel outer (← repeating 1 none)
    | some '\x7b' =>
      let (p, before) ← repeatedBy level here
      let (least, most) ← readCounts
      readFrom fuel outer (before.push (some (.repeated p least most)))
    | some '[' =>
      let s ← readClass ((← get).rest.length + 1)
      if (← get).eitherCase then noteNotOffered .eitherCase here
      readFrom fuel outer (level.push (some (.one s)))
    | some '.' =>
      skip 1
      readFrom fuel outer (level.push (some (.one (.compl (.single '\n')))))
    | some '^' =>
      skip 1
      readFrom fuel outer (level.push (some .atStart))
    | some '$' =>
      skip 1
      readFrom fuel outer (level.push (some .atEnd))
    | some c =>
      match ← readAtom c with
      | .char c =>
        if (← get).eitherCase then noteNotOffered .eitherCase here
        readFrom fuel outer (level.push (some (.one (.single c))))
      | .set s => readFrom fuel outer (level.push (some (.one s)))
      | .edge p => readFrom fuel outer (level.push (some p))

end PatternReader

/-- The pattern that a text writes down. -/
def Pattern.read (text : String) : Except PatternError Pattern := do
  let cs := text.toList
  let reading := PatternReader.readFrom (cs.length + 1) [] { opened := 0, eitherCase := false }
  let (pattern, stop) ←
    reading.run { place := 0, rest := cs, eitherCase := false, notOffered := none }
  match stop.notOffered with
  | some e => throw e
  | none => return pattern

end HexDiff
