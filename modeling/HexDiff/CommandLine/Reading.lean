import HexDiff.CommandLine.Invocation

/-!
# Reading the command line

The words of a command line are read from left to right, each on the level that was reached before
it.  A level that has commands looks for one first.  A word that begins with dashes is an option or
a cluster of letters, unless it is a single dash; after a double dash there are no options and no
commands any more.  Every other word is the value of the option before it, if that still needs one,
and otherwise goes to the next free slot.

A value is not looked at when it is read, but when the next argument has been recognised, or at the
end.  So an option that is not known is reported before a bad value that stands in front of it.

At the end the levels are checked, the deepest one first: that there is a command, that no switches
exclude each other, and that the slots are filled.
-/

namespace HexDiff.CommandLine

/-- Why there is nothing to perform. -/
inductive Stop where
  | refused (e : UsageError)
  | help (level : Level)
  | version
  deriving DecidableEq, Repr

/-! ### Words -/

/-- What a word looks like. -/
inductive WordShape where
  /-- A double dash. -/
  | dashes
  /-- A long option, with what follows its equals sign. -/
  | long (name : String) (value : Option String)
  /-- A cluster of letters. -/
  | cluster (letters : List Char)
  | plain
  deriving DecidableEq, Repr

/-- The shape of a word. -/
def WordShape.of (word : String) : WordShape :=
  match word.toList with
  | ['-', '-'] => .dashes
  | '-' :: '-' :: rest =>
    .long (String.ofList (rest.takeWhile (· ≠ '=')))
      ((rest.dropWhile (· ≠ '=')).tail?.map String.ofList)
  | '-' :: c :: letters => .cluster (c :: letters)
  | _ => .plain

/-! ### One level -/

/-- How far a level has been read. -/
structure Reading where
  level : Level
  settings : Settings := {}
  /-- What still has to be stored: the words for a slot, none yet if an option needs its value. -/
  pending : Option (Slot × List String) := none
  /-- The slots that are still free. -/
  slots : List Slot
  /-- Whether there was a double dash. -/
  dashed : Bool := false

namespace Reading

/-- A level before its first word. -/
def start (level : Level) : Reading where
  level
  slots := level.slots

/-- Stores what is pending. -/
def settle (r : Reading) : Except Stop Reading :=
  match r.pending with
  | none => .ok r
  | some (slot, []) => .error (.refused (.valueMissing slot))
  | some (slot, words) =>
    match words.foldlM (·.store slot ·) r.settings with
    | .ok settings => .ok { r with settings, pending := none }
    | .error e => .error (.refused e)

/-- Changes the settings after what is pending has been stored. -/
def update (r : Reading) (f : Settings → Except UsageError Settings) : Except Stop Reading := do
  let settled ← r.settle
  match f settled.settings with
  | .ok settings => .ok { settled with settings }
  | .error e => .error (.refused e)

/-- Takes up an option that has no value with it. -/
def takeOption (r : Reading) : Opt → Except Stop Reading
  | .switch s => r.update (·.turnOn s)
  | .valued slot => do return { ← r.settle with pending := some (slot, []) }
  | .help => do
    let _ ← r.settle
    throw (.help r.level)
  | .version => do
    let _ ← r.settle
    throw .version

/-- Takes up a long option. -/
def takeLong (r : Reading) (name : String) (value : Option String) : Except Stop Reading :=
  match r.level.long? name, value with
  | none, _ => .error (.refused (.unexpected ("--" ++ name)))
  | some (.valued slot), some word => r.update (·.store slot word)
  | some option, some word => .error (.refused (.valueNotTaken word option))
  | some option, none => r.takeOption option

/-- Takes up a cluster of letters, one after the other. -/
def takeCluster (r : Reading) : List Char → Except Stop Reading
  | [] => .ok r
  | letter :: letters =>
    match r.level.short? letter with
    | none => .error (.refused (.unexpected (String.ofList ['-', letter])))
    | some option => do
      let r' ← r.takeOption option
      r'.takeCluster letters

/-- The objection to an argument for which there is no slot. -/
def noSlot (r : Reading) (word : String) : UsageError :=
  if r.level.commands.isEmpty || (r.dashed && r.level.isCommand word) then .unexpected word
  else .unknownCommand word

/-- Takes up an argument. -/
def takeArgument (r : Reading) (word : String) : Except Stop Reading :=
  match r.slots, r.pending with
  | [], _ => .error (.refused (r.noSlot word))
  | .hex :: _, some (.hex, words) => .ok { r with pending := some (.hex, words ++ [word]) }
  | slot :: rest, _ => do
    let settled ← r.settle
    return { settled with
      pending := some (slot, [word])
      slots := if slot = .hex then slot :: rest else rest }

/-- Takes up a word that is no command. -/
def takeWord (r : Reading) (word : String) : Except Stop Reading :=
  if r.dashed then r.takeArgument word
  else
    match WordShape.of word with
    | .dashes => .ok { r with dashed := true }
    | .long name value => r.takeLong name value
    | .cluster letters => r.takeCluster letters
    | .plain =>
      match r.pending with
      | some (slot, []) => .ok { r with pending := some (slot, [word]) }
      | _ => r.takeArgument word

/-- The check of a level from which a deeper one was reached. -/
def checkOuter (r : Reading) : Except Stop Unit :=
  r.settings.checkConflict.mapError .refused

/-- What was asked for, when the words are used up. -/
def finish (r : Reading) : Except Stop Invocation := do
  let settled ← r.settle
  if !settled.level.commands.isEmpty then
    throw <| .refused <|
      if settled.settings.switches.isEmpty then .nothingGiven settled.level
      else .commandMissing settled.level
  settled.checkOuter
  match settled.settings.command? settled.level with
  | some command => return ⟨settled.settings.common, command⟩
  | none => throw (.refused .argumentMissing)

end Reading

/-! ### All levels -/

/-- Follows the words after the help command. -/
def helpFor (level : Level) : List String → Stop
  | [] => .help level
  | word :: rest =>
    match level.command? word with
    | some next => helpFor next rest
    | none =>
      match level.isCommand word, rest with
      | true, [] => .help level
      | true, next :: _ => .refused (.unknownCommand next)
      | false, _ => .refused (.unknownCommand word)

/-- Reads words on a level and the deeper ones. -/
def readFrom (r : Reading) : List String → Except Stop Invocation
  | [] => r.finish
  | word :: rest =>
    match r.level.command? word, r.dashed with
    | some next, false => do
      let inner ← readFrom (.start next) rest
      r.checkOuter
      return { inner with common := r.settings.common.within inner.common }
    | _, dashed =>
      if !dashed && r.level.isCommand word then .error (helpFor r.level rest)
      else do
        let r' ← r.takeWord word
        readFrom r' rest

/-- Reads a command line, without the name of the program. -/
def read (words : List String) : Except Stop Invocation :=
  readFrom (.start .program) words

end HexDiff.CommandLine
