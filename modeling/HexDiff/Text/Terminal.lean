import HexDiff.Text.Utf8

/-!
# Text for a terminal

A terminal reads some characters not as text but as control sequences, which begin with the escape
character.  A text that has them is written for a terminal; where it goes elsewhere, they are taken
out of it (`plain`), together with the control characters that show nothing.

A reader of such a text is either in plain text or at some point of a sequence (`TerminalMode`).
It has one peculiarity: a line break or a tab within a sequence is shown, and from there on
everything is shown that would be shown in plain text, up to the next character that would not.
Only then is the rest of the sequence looked for.
-/

namespace HexDiff

/-- Where a reader of a text for a terminal stands. -/
inductive TerminalMode where
  /-- In plain text. -/
  | text
  /-- Right after an escape character. -/
  | escape
  /-- In a short sequence, before its last character. -/
  | escapeTail
  /-- In a control sequence, which ends with a letter or the like. -/
  | control
  /-- At the beginning of a device string. -/
  | device
  /-- In the parameters of a device string. -/
  | deviceParameters
  /-- Between the parameters of a device string and what it carries. -/
  | deviceTail
  /-- In a text for a device, which ends with a string terminator. -/
  | payload
  /-- In a command to the terminal itself, which ends with a bell. -/
  | command
  deriving DecidableEq, Repr

namespace TerminalMode

/-- Whether a character lies between two code points. -/
def within (first last : Nat) (c : Char) : Bool :=
  first ≤ c.toNat && c.toNat ≤ last

/-- The mode after a character, if the character changes it.  Two control characters break off
whatever has begun, and an escape character begins anew wherever it stands. -/
def next? (mode : TerminalMode) (c : Char) : Option TerminalMode :=
  if c = '\x18' ∨ c = '\x1a' then some text
  else if c = '\x1b' then some escape
  else
    match mode with
    | text => if 0x80 ≤ c.toNat then some text else none
    | escape =>
      if c = '[' then some control
      else if c = ']' then some command
      else if c = 'P' then some device
      else if c = 'X' ∨ c = '^' ∨ c = '_' then some payload
      else if within 0x20 0x2F c then some escapeTail
      else if within 0x30 0x7E c then some text
      else none
    | escapeTail => if within 0x30 0x7E c then some text else none
    | control => if within 0x40 0x7E c then some text else none
    | device =>
      if within 0x20 0x2F c then some deviceTail
      else if within 0x30 0x3F c then some deviceParameters
      else if within 0x40 0x7E c then some payload
      else none
    | deviceParameters =>
      if within 0x20 0x2F c then some deviceTail
      else if within 0x3C 0x7E c then some payload
      else none
    | deviceTail => if within 0x30 0x7E c then some payload else none
    | payload => if 0x9C ∈ utf8 [c] then some text else none
    | command => if c = '\x07' then some text else none

/-- The mode after a character. -/
def next (mode : TerminalMode) (c : Char) : TerminalMode :=
  (mode.next? c).getD mode

/-- The tab and the breaks of lines and pages. -/
def isLayout (c : Char) : Bool :=
  c = '\t' || c = '\n' || c = '\x0c' || c = '\r'

/-- Whether a character is shown. -/
def shows (mode : TerminalMode) (c : Char) : Bool :=
  match mode with
  | text => isLayout c || (0x20 ≤ c.toNat && c.toNat != 0x7F)
  | escape | escapeTail | control => isLayout c
  | _ => false

end TerminalMode

namespace Terminal

/-- A text that stands out on a terminal. -/
def highlighted (s : String) : String :=
  "\x1b[1m" ++ s ++ "\x1b[0m"

/-- The characters that are shown, from some mode on.  In a run of shown characters (`inRun`) it is
plain text that decides, and the mode waits for the run to end. -/
def shownFrom (mode : TerminalMode) (inRun : Bool) : List Char → List Char
  | [] => []
  | c :: rest =>
    if inRun then
      let waiting := (TerminalMode.text.next? c).getD mode
      if TerminalMode.text.shows c then c :: shownFrom waiting true rest
      else shownFrom (waiting.next c) false rest
    else if mode.shows c then c :: shownFrom (mode.next c) true rest
    else shownFrom (mode.next c) false rest

/-- A text without its control sequences. -/
def plain (s : String) : String :=
  String.ofList (shownFrom .text false s.toList)

/-- Text in which every character is shown is left as it is. -/
theorem shownFrom_eq_self {inRun : Bool} {cs : List Char}
    (h : ∀ c ∈ cs, TerminalMode.text.shows c = true) : shownFrom .text inRun cs = cs := by
  have stays (c : Char) (hc : TerminalMode.text.shows c = true) :
      TerminalMode.text.next? c = none ∨ TerminalMode.text.next? c = some .text := by
    unfold TerminalMode.next?
    split
    · exact .inr rfl
    · split
      · subst_vars
        exact absurd hc (by decide)
      · dsimp only
        split
        · exact .inr rfl
        · exact .inl rfl
  induction cs generalizing inRun with
  | nil => rfl
  | cons c rest ih =>
    have hc := h c (List.mem_cons_self ..)
    have hrest := fun d hd => h d (List.mem_cons_of_mem _ hd)
    cases inRun <;> rcases stays c hc with hn | hn <;>
      simp [shownFrom, TerminalMode.next, hc, hn, ih hrest]

end Terminal
end HexDiff
