import HexDiff.CommandLine.Outcome
import HexDiff.Proofs.CommandLine.Provenance
import HexDiff.Proofs.Files.Outputs

/-!
# Overwriting

The program never changes a file that exists, unless it is told to by the force switch.  What keeps
it from doing so is a look at the path of the output before anything else is done.  This is enough
because the path is looked up in the same way when the file is created: a path that leads to nothing
has a place, if any, at which there is nothing yet (`FileTree.node?_eq_none_of_place`).

The words of a command line decide where a file can be created as well (`run_spares_files`).
-/

namespace HexDiff

namespace FileTree

variable {before after : FileTree} {location : Location} {content : List UInt8}

/-- A path that leads to nothing can be the path of a new file only. -/
theorem node?_eq_none_of_place {tree : FileTree} {path : String}
    (hplace : tree.place path = .ok location) (habsent : tree.contains path = false) :
    tree.node? location = none := by
  rw [contains, find_of_place hplace] at habsent
  cases hnode : tree.node? location with
  | none => rfl
  | some node =>
    rw [hnode] at habsent
    cases habsent

/-- A new file leaves those that exist as they are. -/
theorem Rewritten.content?_of_new (h : before.Rewritten location content after)
    (hnew : before.node? location = none) {other : Location} {kept : List UInt8}
    (hkept : before.content? other = some kept) : after.content? other = some kept := by
  have hne : other ≠ location := by
    rintro rfl
    rw [content?, hnew] at hkept
    cases hkept
  rw [content?, h.node?_of_ne other hne]
  exact hkept

end FileTree

namespace CommandLine

/-- Where there is nothing to perform, nothing happens to the files. -/
@[simp] theorem Stop.tree_toOutcome (stop : Stop) (tree : FileTree) :
    (stop.toOutcome tree).tree = tree := by
  cases stop <;> rfl

namespace Invocation

variable {invocation : Invocation} {tree : FileTree}

/-- Only comparisons and dumps do something to the files, and they do what a report may do. -/
theorem reported_performWith (invocation : Invocation) (filter : LogFilter) (tree : FileTree) :
    tree.Reported invocation.command.output (invocation.performWith filter tree).tree := by
  rw [performWith]
  split
  · exact .inl rfl
  · cases invocation.command with
    | diff layout left right output => exact reported_diffFiles tree layout left right output
    | dump layout input first last output =>
      exact reported_dumpFile tree layout input first last output
    | encode codec text =>
      dsimp only
      cases codec.encode text <;> exact .inl rfl
    | decode codec pieces =>
      dsimp only
      cases HexBytes.read pieces with
      | error e => exact .inl rfl
      | ok bytes =>
        dsimp only
        cases codec.decode bytes <;> exact .inl rfl
    | config => exact .inl rfl

/-- An output that exists is protected, if overwriting was not asked for. -/
theorem tree_performWith_of_contains (hforce : invocation.common.force = false) {path : String}
    (houtput : invocation.command.output = some path) (hpath : tree.contains path = true)
    (filter : LogFilter) : (invocation.performWith filter tree).tree = tree := by
  have hprotected : invocation.protectedOutput tree = some path := by
    simp [protectedOutput, hforce, houtput, hpath]
  rw [performWith, hprotected]
  rfl

/-- If overwriting was not asked for, nothing happens to the files, or a new one is at the path of
the output. -/
theorem tree_perform (hforce : invocation.common.force = false) (env : Environment) :
    (invocation.perform env).tree = env.tree ∨
      ∃ path location content, invocation.command.output = some path ∧
        env.tree.contains path = false ∧ env.tree.place path = .ok location ∧
        env.tree.node? location = none ∧
        env.tree.Rewritten location content (invocation.perform env).tree := by
  let filter := (logFilter env.logRequest invocation.common).1
  have hperform : (invocation.perform env).tree = (invocation.performWith filter env.tree).tree :=
    rfl
  rw [hperform]
  rcases reported_performWith invocation filter env.tree with
    hkept | ⟨path, location, content, houtput, hplace, hrewritten⟩
  · exact .inl hkept
  · cases hpath : env.tree.contains path with
    | true => exact .inl (tree_performWith_of_contains hforce houtput hpath filter)
    | false =>
      exact .inr ⟨path, location, content, houtput, hpath, hplace,
        FileTree.node?_eq_none_of_place hplace hpath, hrewritten⟩

end Invocation

/-- A command line can be read and asks to overwrite. -/
def SetsForce (words : List String) : Prop :=
  ∃ invocation, read words = .ok invocation ∧ invocation.common.force = true

instance (words : List String) : Decidable (SetsForce words) :=
  decidable_of_iff ((read words).toOption.any (·.common.force) = true) <| by
    cases hread : read words <;> simp [SetsForce, hread, Except.toOption]

/-- **Nothing is overwritten without the force switch.**  A command line asks to overwrite only if a
word of it turns the force switch on.  If it does not ask to, then whatever it is and however it
ends, each file has the content it had before.  At most one file is new: it is at the path that a
word gives to a comparison or a dump as its output; this path is not a dash, and nothing was there
before. -/
theorem run_spares_files (env : Environment) (words : List String) :
    (SetsForce words → ∃ word ∈ words, TurnsOn word .force) ∧
      (¬SetsForce words →
        let after := (run env words).tree
        (∀ location content, env.tree.content? location = some content →
          after.content? location = some content) ∧
        (after = env.tree ∨
          ∃ invocation path location content,
            read words = .ok invocation ∧ invocation.command.output = some path ∧
            path ≠ "-" ∧ (∃ word ∈ words, Brings word path) ∧
            env.tree.contains path = false ∧ env.tree.place path = .ok location ∧
            env.tree.node? location = none ∧
            env.tree.Rewritten location content after)) := by
  refine ⟨fun ⟨_, hread, hforce⟩ => (from_read hread).force hforce, fun hforce => ?_⟩
  rw [run]
  cases hread : read words with
  | error stop =>
    dsimp only
    rw [stop.tree_toOutcome]
    exact ⟨fun _ _ h => h, .inl rfl⟩
  | ok invocation =>
    have hspared : invocation.common.force = false :=
      Bool.eq_false_of_not_eq_true fun h => hforce ⟨invocation, hread, h⟩
    rcases Invocation.tree_perform hspared env with
      hkept | ⟨path, location, content, houtput, habsent, hplace, hnew, hrewritten⟩
    · dsimp only
      rw [hkept]
      exact ⟨fun _ _ h => h, .inl rfl⟩
    · obtain ⟨hdash, hword⟩ := (from_read hread).output path houtput
      exact ⟨fun _ _ h => hrewritten.content?_of_new hnew h,
        .inr ⟨invocation, path, location, content, rfl, houtput, hdash, hword, habsent, hplace,
          hnew, hrewritten⟩⟩

/-- A dump to an output that exists, and one to an output that does not.  In the latter the letter
of the force switch is part of the path only. -/
theorem run_spares_files_dump :
    let env : Environment := { tree := { entries := [
      (["in".toList], .file [65]), (["out".toList], .file [88])] } }
    let refused := ["dump", "in", "--output", "out"]
    let created := ["dump", "--output=-f", "in"]
    ¬SetsForce refused ∧ (run env refused).tree.content? ["out".toList] = some [88] ∧
      ¬SetsForce created ∧ (run env created).tree.content? ["out".toList] = some [88] := by
  intro env refused created
  have hrefused : ¬SetsForce refused := by decide +kernel
  have hcreated : ¬SetsForce created := by decide +kernel
  have hout : env.tree.content? ["out".toList] = some [88] := by decide +kernel
  exact ⟨hrefused, ((run_spares_files env refused).2 hrefused).1 _ _ hout,
    hcreated, ((run_spares_files env created).2 hcreated).1 _ _ hout⟩

end CommandLine
end HexDiff
