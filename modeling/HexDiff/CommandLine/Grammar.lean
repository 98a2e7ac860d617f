/-!
# The grammar of the command line

The command line is read on levels.  The program is the first level; the word for a command leads to
the level of that command, and the text conversions have a further level for each direction.  A
level knows the commands that lead on from it, the options that it takes, and the slots that its
other arguments fill, one after the other.

The common switches may be given on every level.  Help is available on every level, as an option and
wherever there are commands also as a command; the version is told by the program only.
-/

namespace HexDiff.CommandLine

/-- The two text conversions. -/
inductive Codec where
  | base40
  | screenCode
  deriving DecidableEq, Repr

/-- The word for a text conversion. -/
def Codec.word : Codec → String
  | .base40 => "base40"
  | .screenCode => "screencode"

/-! ### Switches -/

/-- An option that takes no value. -/
inductive Switch where
  | force
  | quiet
  | verbose
  | json
  | ascii
  | screenCode
  | base40
  | base40Odd
  deriving DecidableEq, Repr

namespace Switch

/-- The long name of a switch. -/
def long : Switch → String
  | force => "force"
  | quiet => "quiet"
  | verbose => "verbose"
  | json => "json"
  | ascii => "ascii"
  | screenCode => "c64text"
  | base40 => "base40"
  | base40Odd => "base40-odd"

/-- The letter of a switch, if it has one. -/
def short? : Switch → Option Char
  | force => some 'f'
  | quiet => some 'q'
  | verbose => some 'v'
  | json => none
  | ascii => some 'a'
  | screenCode => some 'c'
  | base40 => some 'b'
  | base40Odd => some 'o'

/-- How messages name a switch; the dots tell that it may be repeated. -/
def label : Switch → String
  | verbose => "--verbose..."
  | switch => "--" ++ switch.long

/-- The switches of every level. -/
def common : List Switch :=
  [force, quiet, verbose, json]

/-- The switches that add overlays. -/
def overlays : List Switch :=
  [ascii, screenCode, base40, base40Odd]

end Switch

/-! ### Slots -/

/-- Something that takes a value. -/
inductive Slot where
  | lineLength
  | offsetWidth
  | left
  | right
  /-- The output as an argument. -/
  | output
  | input
  | first
  | last
  /-- The output as an option. -/
  | outputOption
  | text
  /-- The only slot that takes any number of values. -/
  | hex
  deriving DecidableEq, Repr

namespace Slot

/-- How messages name a slot. -/
def label : Slot → String
  | lineLength => "--line-length <LINE_LENGTH>"
  | offsetWidth => "--offset-width <OFFSET_WIDTH>"
  | left => "<LEFT>"
  | right => "<RIGHT>"
  | output => "[OUTPUT]"
  | input => "<INPUT>"
  | first => "[BEGIN]"
  | last => "[END]"
  | outputOption => "--output <OUTPUT>"
  | text => "<TEXT>"
  | hex => "<HEX>..."

end Slot

/-! ### Options -/

/-- What an option is. -/
inductive Opt where
  | switch (s : Switch)
  | valued (slot : Slot)
  | help
  | version
  deriving DecidableEq, Repr

/-- How messages name an option. -/
def Opt.label : Opt → String
  | switch s => s.label
  | valued slot => slot.label
  | help => "--help"
  | version => "--version"

/-! ### Levels -/

/-- A level of the command line. -/
inductive Level where
  | program
  | diff
  | dump
  | codec (c : Codec)
  | encode (c : Codec)
  | decode (c : Codec)
  | config
  deriving DecidableEq, Repr

namespace Level

/-- The word for the help command. -/
def helpWord : String := "help"

/-- The commands that lead on from a level, with their words. -/
def commands : Level → List (String × Level)
  | program =>
    [("diff", diff), ("dump", dump), ("base40", codec .base40), ("screencode", codec .screenCode),
      ("config", config)]
  | codec c => [("encode", encode c), ("decode", decode c)]
  | _ => []

/-- The level to which a word leads. -/
def command? (level : Level) (word : String) : Option Level :=
  level.commands.lookup word

/-- Whether a word is a command, help included. -/
def isCommand (level : Level) (word : String) : Bool :=
  (level.command? word).isSome || (!level.commands.isEmpty && word == helpWord)

/-- The slots that the arguments of a level fill. -/
def slots : Level → List Slot
  | diff => [.left, .right, .output]
  | dump => [.input, .first, .last]
  | encode _ => [.text]
  | decode _ => [.hex]
  | _ => []

/-- The switches of a level. -/
def switches : Level → List Switch
  | diff => Switch.common ++ Switch.overlays
  | dump => Switch.common ++ Switch.overlays
  | _ => Switch.common

/-- The options with a value of a level, with their long names. -/
def valued : Level → List (String × Slot)
  | diff => [("line-length", .lineLength), ("offset-width", .offsetWidth)]
  | dump =>
    [("line-length", .lineLength), ("offset-width", .offsetWidth), ("output", .outputOption)]
  | _ => []

/-- The option of a long name. -/
def long? (level : Level) (name : String) : Option Opt :=
  if name = "help" then some .help
  else if name = "version" ∧ level = program then some .version
  else
    match level.switches.find? (·.long = name) with
    | some s => some (.switch s)
    | none => (level.valued.lookup name).map .valued

/-- The option of a letter. -/
def short? (level : Level) (letter : Char) : Option Opt :=
  if letter = 'h' then some .help
  else if letter = 'V' ∧ level = program then some .version
  else (level.switches.find? (·.short? = some letter)).map .switch

/-- The words that lead to a level, from the program on. -/
def title : Level → String
  | program => "blockdiff"
  | diff => "blockdiff diff"
  | dump => "blockdiff dump"
  | codec c => "blockdiff " ++ c.word
  | encode c => "blockdiff " ++ c.word ++ " encode"
  | decode c => "blockdiff " ++ c.word ++ " decode"
  | config => "blockdiff config"

/-- What a level is for. -/
def purpose : Level → String
  | program => "Block-by-block binary diff with text overlays"
  | diff => "Compare two files block by block"
  | dump => "Dump a byte range of one file in diff layout"
  | codec .base40 => "Packed base-40 text conversion"
  | codec .screenCode => "Screen-code text conversion"
  | encode _ => "Encode text, printing hex bytes"
  | decode _ => "Decode hex bytes, printing text"
  | config => "Print build/configuration details"

/-- How a level is used. -/
def usage (level : Level) : String :=
  let arguments := if level.commands.isEmpty then level.slots.map Slot.label else ["<COMMAND>"]
  "Usage: " ++ " ".intercalate (level.title :: "[OPTIONS]" :: arguments)

/-- The help of a level. -/
def help (level : Level) : String :=
  level.purpose ++ "\n\n" ++ level.usage ++ "\n"

end Level
end HexDiff.CommandLine
