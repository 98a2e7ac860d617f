import Mathlib.Data.List.Basic
import HexDiff.CommandLine.Reading
import HexDiff.Proofs.Chains

/-!
# Where settings come from

Nothing is asked for that the words of a command line do not say.  The settings of a level change
in two ways only, by a switch that is turned on and by a value that is stored, and for both there is
a word (`TurnsOn`, `Brings`).  A value may be pending for some time before it is stored, so the
invariant of a reading is about what is pending as well (`Reading.From`).

The main statement is `from_read`: if a command line can be read and asks to overwrite, one of its
words turns the force switch on, and if it has an output, one of its words brings the path, which is
not a dash.
-/

namespace HexDiff.CommandLine

/-- A word turns a switch on by its long name, or by its letter among others. -/
def TurnsOn (word : String) (switch : Switch) : Prop :=
  WordShape.of word = .long switch.long none ∨
    ∃ letters letter, WordShape.of word = .cluster letters ∧ letter ∈ letters ∧
      switch.short? = some letter

/-- A word brings a value that is the word itself, or that stands behind an equals sign. -/
def Brings (word value : String) : Prop :=
  word = value ∨ ∃ name, WordShape.of word = .long name (some value)

/-- The settings of a level come from some words. -/
structure Settings.From (words : List String) (s : Settings) : Prop where
  switches : ∀ switch ∈ s.switches, ∃ word ∈ words, TurnsOn word switch
  output : ∀ path, s.output = some path → ∃ word ∈ words, Brings word path

/-- What has been read on a level comes from some words, that which is still to be stored
included. -/
structure Reading.From (words : List String) (r : Reading) : Prop where
  settings : r.settings.From words
  pending : ∀ slot values, r.pending = some (slot, values) →
    ∀ value ∈ values, ∃ word ∈ words, Brings word value

/-- What is asked for comes from some words, as far as it can do harm. -/
structure Invocation.From (words : List String) (invocation : Invocation) : Prop where
  force : invocation.common.force = true → ∃ word ∈ words, TurnsOn word .force
  output : ∀ path, invocation.command.output = some path →
    path ≠ "-" ∧ ∃ word ∈ words, Brings word path

/-! ### Options of a level -/

/-- A switch is found under its long name only. -/
theorem Level.long?_eq_switch {level : Level} {name : String} {switch : Switch}
    (h : level.long? name = some (.switch switch)) : name = switch.long := by
  rw [long?] at h
  split at h
  · cases h
  · split at h
    · cases h
    · split at h
      · next found hfind =>
        cases h
        have hname : switch.long = name := by simpa using List.find?_some hfind
        exact hname.symm
      · obtain ⟨slot, -, hslot⟩ := Option.map_eq_some_iff.mp h
        cases hslot

/-- A switch is found under its letter only. -/
theorem Level.short?_eq_switch {level : Level} {letter : Char} {switch : Switch}
    (h : level.short? letter = some (.switch switch)) : switch.short? = some letter := by
  rw [short?] at h
  split at h
  · cases h
  · split at h
    · cases h
    · obtain ⟨found, hfind, hfound⟩ := Option.map_eq_some_iff.mp h
      cases hfound
      simpa using List.find?_some hfind

/-! ### Settings -/

namespace Settings

variable {s s' : Settings} {switch : Switch} {slot : Slot} {value : String}

/-- No switch is on after another was turned on that was not on before. -/
theorem switches_of_turnOn (h : s.turnOn switch = .ok s') :
    ∀ other ∈ s'.switches, other ∈ s.switches ∨ other = switch := by
  intro other hother
  rw [turnOn] at h
  split at h
  · next hverbose =>
    subst hverbose
    cases h
    rcases List.mem_append.mp hother with hkept | hnew
    · exact .inl (List.mem_of_mem_filter hkept)
    · exact .inr (List.mem_singleton.mp hnew)
  · split at h
    · cases h
    · cases h
      rcases List.mem_append.mp hother with hkept | hnew
      · exact .inl hkept
      · exact .inr (List.mem_singleton.mp hnew)

/-- Switches have no values. -/
theorem output_of_turnOn (h : s.turnOn switch = .ok s') : s'.output = s.output := by
  rw [turnOn] at h
  split at h
  · cases h
    rfl
  · split at h
    · cases h
    · cases h
      rfl

/-- What it takes to store a value that has to pass a check. -/
theorem exists_of_checked {α β : Type} {held : Option α} {checked : Except UsageError β}
    {put : β → Settings}
    (h : (do free slot held; return put (← checked)) = Except.ok (ε := UsageError) s') :
    ∃ b, checked = .ok b ∧ s' = put b := by
  obtain ⟨-, -, h⟩ := bind_eq_ok_iff.mp h
  obtain ⟨b, hb, h⟩ := bind_eq_ok_iff.mp h
  cases h
  exact ⟨b, hb, rfl⟩

/-- Values turn no switch on. -/
theorem switches_of_store (h : s.store slot value = .ok s') : s'.switches = s.switches := by
  cases slot with
  | hex => cases h; rfl
  | text =>
    obtain ⟨-, -, h⟩ := bind_eq_ok_iff.mp h
    cases h
    rfl
  | _ => obtain ⟨-, -, rfl⟩ := exists_of_checked h; rfl

/-- A value is stored as the output as it is, or the output stays. -/
theorem output_of_store (h : s.store slot value = .ok s') :
    s'.output = s.output ∨ s'.output = some value := by
  cases slot with
  | hex => cases h; exact .inl rfl
  | text =>
    obtain ⟨-, -, h⟩ := bind_eq_ok_iff.mp h
    cases h
    exact .inl rfl
  | output | outputOption =>
    obtain ⟨path, hpath, rfl⟩ := exists_of_checked h
    rw [readPath] at hpath
    split at hpath
    · cases hpath
    · cases hpath
      exact .inr rfl
  | _ => obtain ⟨-, -, rfl⟩ := exists_of_checked h; exact .inl rfl

end Settings

namespace Settings.From

variable {words : List String} {s s' : Settings}

/-- Nothing comes from whatever words. -/
theorem nothing (words : List String) : Settings.From words {} where
  switches := List.forall_mem_nil _
  output := nofun

/-- A switch that a word turns on. -/
theorem turnOn (h : s.From words) {switch : Switch} (hword : ∃ word ∈ words, TurnsOn word switch)
    (hs : s.turnOn switch = .ok s') : s'.From words where
  switches := fun other hother => by
    rcases Settings.switches_of_turnOn hs other hother with hkept | rfl
    · exact h.switches other hkept
    · exact hword
  output := by
    rw [Settings.output_of_turnOn hs]
    exact h.output

/-- A value that a word brings. -/
theorem store (h : s.From words) {slot : Slot} {value : String}
    (hword : ∃ word ∈ words, Brings word value) (hs : s.store slot value = .ok s') :
    s'.From words where
  switches := by
    rw [Settings.switches_of_store hs]
    exact h.switches
  output := fun path hpath => by
    rcases Settings.output_of_store hs with hkept | hnew
    · exact h.output path (hkept ▸ hpath)
    · cases hnew.symm.trans hpath
      exact hword

/-- Values that words bring, one after the other. -/
theorem storeAll {slot : Slot} {values : List String} (h : s.From words)
    (hwords : ∀ value ∈ values, ∃ word ∈ words, Brings word value)
    (hs : values.foldlM (·.store slot ·) s = .ok s') : s'.From words := by
  induction values generalizing s with
  | nil =>
    cases hs
    exact h
  | cons value values ih =>
    obtain ⟨stored, hstored, hrest⟩ := bind_eq_ok_iff.mp hs
    rw [List.forall_mem_cons] at hwords
    exact ih (h.store hwords.1 hstored) hwords.2 hrest

end Settings.From

/-! ### Readings -/

namespace Reading.From

variable {words : List String} {r r' : Reading}

/-- A level before its first word. -/
theorem start (words : List String) (level : Level) : (Reading.start level).From words where
  settings := .nothing words
  pending := nofun

/-- Storing what is pending. -/
theorem settle (h : r.From words) (hr : r.settle = .ok r') : r'.From words := by
  rw [Reading.settle] at hr
  split at hr
  · cases hr
    exact h
  · cases hr
  · next slot values _ hpending =>
    split at hr
    · next settings hstore =>
      cases hr
      exact ⟨h.settings.storeAll (h.pending slot values hpending) hstore, nofun⟩
    · cases hr

/-- A change of the settings that keeps to the words. -/
theorem update (h : r.From words) {f : Settings → Except UsageError Settings}
    (hf : ∀ {s s' : Settings}, s.From words → f s = .ok s' → s'.From words)
    (hr : r.update f = .ok r') : r'.From words := by
  obtain ⟨settled, hsettled, hr⟩ := bind_eq_ok_iff.mp hr
  have hfrom := h.settle hsettled
  split at hr
  · next settings hsettings =>
    cases hr
    exact ⟨hf hfrom.settings hsettings, hfrom.pending⟩
  · cases hr

/-- An option without a value of its own. -/
theorem takeOption (h : r.From words) {option : Opt}
    (hword : ∀ switch, option = .switch switch → ∃ word ∈ words, TurnsOn word switch)
    (hr : r.takeOption option = .ok r') : r'.From words := by
  cases option with
  | switch switch => exact h.update (fun hs => hs.turnOn (hword switch rfl)) hr
  | valued slot =>
    obtain ⟨settled, hsettled, hr⟩ := bind_eq_ok_iff.mp hr
    cases hr
    refine ⟨(h.settle hsettled).settings, ?_⟩
    rintro _ _ ⟨⟩
    exact List.forall_mem_nil _
  | help | version =>
    obtain ⟨-, -, hr⟩ := bind_eq_ok_iff.mp hr
    cases hr

/-- A long option. -/
theorem takeLong (h : r.From words) {word name : String} {value : Option String}
    (hword : word ∈ words) (hshape : WordShape.of word = .long name value)
    (hr : r.takeLong name value = .ok r') : r'.From words := by
  unfold Reading.takeLong at hr
  split at hr
  · cases hr
  · next slot value hfound =>
    exact h.update (fun hs => hs.store ⟨word, hword, .inr ⟨name, hshape⟩⟩) hr
  · cases hr
  · next option hfound =>
    refine h.takeOption (fun switch hswitch => ⟨word, hword, .inl ?_⟩) hr
    rw [hswitch] at hfound
    rw [hshape, Level.long?_eq_switch hfound]

/-- The letters of a cluster. -/
theorem takeCluster (h : r.From words) {word : String} {letters : List Char}
    (hword : word ∈ words) (hshape : WordShape.of word = .cluster letters)
    (hr : r.takeCluster letters = .ok r') : r'.From words := by
  -- the letters are used up one after the other, so the induction is on some of them
  suffices hsome : ∀ some ⊆ letters, ∀ r : Reading, r.From words →
      r.takeCluster some = .ok r' → r'.From words from hsome letters (List.Subset.refl _) r h hr
  intro some
  induction some with
  | nil =>
    intro _ r h hr
    cases hr
    exact h
  | cons letter rest ih =>
    intro hsub r h hr
    obtain ⟨hletter, hrest⟩ := List.cons_subset.mp hsub
    rw [Reading.takeCluster] at hr
    split at hr
    · cases hr
    · next option hfound =>
      obtain ⟨taken, htaken, hr⟩ := bind_eq_ok_iff.mp hr
      refine ih hrest taken (h.takeOption (fun switch hswitch => ?_) htaken) hr
      rw [hswitch] at hfound
      exact ⟨word, hword, .inr ⟨letters, letter, hshape, hletter, Level.short?_eq_switch hfound⟩⟩

/-- An argument. -/
theorem takeArgument (h : r.From words) {word : String} (hword : word ∈ words)
    (hr : r.takeArgument word = .ok r') : r'.From words := by
  have hbrings : ∃ other ∈ words, Brings other word := ⟨word, hword, .inl rfl⟩
  rw [Reading.takeArgument] at hr
  split at hr
  · cases hr
  · next values _ hpending =>
    cases hr
    refine ⟨h.settings, ?_⟩
    rintro _ _ ⟨⟩ value hvalue
    rcases List.mem_append.mp hvalue with hold | hnew
    · exact h.pending _ _ hpending value hold
    · exact List.mem_singleton.mp hnew ▸ hbrings
  · obtain ⟨settled, hsettled, hr⟩ := bind_eq_ok_iff.mp hr
    cases hr
    refine ⟨(h.settle hsettled).settings, ?_⟩
    rintro _ _ ⟨⟩ value hvalue
    exact List.mem_singleton.mp hvalue ▸ hbrings

/-- A word that is no command. -/
theorem takeWord (h : r.From words) {word : String} (hword : word ∈ words)
    (hr : r.takeWord word = .ok r') : r'.From words := by
  rw [Reading.takeWord] at hr
  split at hr
  · exact h.takeArgument hword hr
  · split at hr
    · cases hr
      exact ⟨h.settings, h.pending⟩
    · next name value hshape => exact h.takeLong hword hshape hr
    · next letters hshape => exact h.takeCluster hword hshape hr
    · split at hr
      · cases hr
        refine ⟨h.settings, ?_⟩
        rintro _ _ ⟨⟩ value hvalue
        exact ⟨word, hword, .inl (List.mem_singleton.mp hvalue).symm⟩
      · exact h.takeArgument hword hr

end Reading.From

/-! ### Invocations -/

/-- The output of a command is the one that was given on its level, except for a dash. -/
theorem Settings.output_of_command? {s : Settings} {level : Level} {command : Command}
    (h : s.command? level = some command) {path : String} (hpath : command.output = some path) :
    s.output = some path ∧ path ≠ "-" := by
  suffices houtput : s.outputPath = some path by
    simpa [outputPath, Option.filter_eq_some_iff] using houtput
  rw [← hpath]
  cases level with
  | diff =>
    obtain ⟨left, -, h⟩ := Option.bind_eq_some_iff.mp h
    obtain ⟨right, -, h⟩ := Option.bind_eq_some_iff.mp h
    cases h
    rfl
  | dump =>
    obtain ⟨input, -, h⟩ := Option.bind_eq_some_iff.mp h
    cases h
    rfl
  | encode c =>
    obtain ⟨text, -, h⟩ := Option.bind_eq_some_iff.mp h
    cases h
    cases hpath
  | decode c =>
    rw [command?] at h
    split at h
    · cases h
    · cases h
      cases hpath
  | config =>
    cases h
    cases hpath
  | program | codec c => cases h

section

variable {words : List String} {r : Reading} {invocation : Invocation}

/-- What is asked for on the deepest level. -/
theorem Reading.From.finish (h : r.From words) (hr : r.finish = .ok invocation) :
    invocation.From words := by
  obtain ⟨settled, hsettled, hr⟩ := bind_eq_ok_iff.mp hr
  have hfrom := (h.settle hsettled).settings
  dsimp only at hr
  split at hr
  · obtain ⟨-, hr, -⟩ := bind_eq_ok_iff.mp hr
    cases hr
  · obtain ⟨-, -, hr⟩ := bind_eq_ok_iff.mp hr
    split at hr
    · next command hcommand =>
      cases hr
      refine ⟨fun hforce => hfrom.switches .force (of_decide_eq_true hforce),
        fun path hpath => ?_⟩
      obtain ⟨houtput, hdash⟩ := Settings.output_of_command? hcommand hpath
      exact ⟨hdash, hfrom.output path houtput⟩
    · cases hr

/-- What is asked for when a level has been read so far and some of the words are left. -/
theorem from_readFrom {rest : List String} (h : r.From words) (hrest : rest ⊆ words)
    (hr : readFrom r rest = .ok invocation) : invocation.From words := by
  induction rest generalizing r invocation with
  | nil => exact h.finish hr
  | cons word rest ih =>
    obtain ⟨hword, hrest⟩ := List.cons_subset.mp hrest
    rw [readFrom] at hr
    split at hr
    · next deeper _ _ =>
      obtain ⟨inner, hinner, hr⟩ := bind_eq_ok_iff.mp hr
      obtain ⟨-, -, hr⟩ := bind_eq_ok_iff.mp hr
      cases hr
      have hfrom := ih (.start words deeper) hrest hinner
      refine ⟨fun hforce => ?_, hfrom.output⟩
      rcases Bool.or_eq_true _ _ ▸ hforce with houter | hinner
      · exact h.settings.switches .force (of_decide_eq_true houter)
      · exact hfrom.force hinner
    · split at hr
      · cases hr
      · obtain ⟨taken, htaken, hr⟩ := bind_eq_ok_iff.mp hr
        exact ih (h.takeWord hword htaken) hrest hr

end

/-- What a command line asks for comes from its words. -/
theorem from_read {words : List String} {invocation : Invocation}
    (h : read words = .ok invocation) : invocation.From words :=
  from_readFrom (.start words .program) (List.Subset.refl words) h

end HexDiff.CommandLine
