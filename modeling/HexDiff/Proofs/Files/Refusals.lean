import HexDiff.Proofs.Dump.Rows
import HexDiff.Proofs.Files.Outputs

/-!
# Refused reports

A report on files is refused if its layout is not valid, or if a path of it cannot be opened.  A
comparison looks at all of this before it creates its output, so that a comparison that is refused
leaves everything as it was.  The same holds of a dump whose layout is valid.

A dump with another layout is different.  It creates its output first and is refused then, and what
the output held before is gone (`dumpFile_refused_empties_output`).  So after such a dump
there is an empty file at the place of the output, all other files are as before, and everything is
as before only if that file was there and was empty (`refused_leaves_files`).
-/

namespace HexDiff

/-- The errors by which a report is refused: a layout that is not valid, or a path that could not be
opened. -/
def FileError.IsRefusal : FileError → Prop
  | .unopened _ _ => True
  | .report (.layout _) => True
  | _ => False

/-! ### Comparisons -/

/-- No block ends a run because of the layout. -/
theorem Comparer.outcome_ne_layout_of_turn {σ : Type} [Outlet σ] {c : Comparer} {p : Progress}
    {left right : Source} {output : σ} {log : Array LogEntry} {result : RunResult σ}
    (h : c.turn p left right output log = .ended result) (cause : LayoutError) :
    result.outcome ≠ .error (.layout cause) := by
  unfold turn at h
  split at h
  · cases h
    exact nofun
  · cases h
    exact nofun
  · split at h
    · next hsettle =>
      cases h
      rcases outcome_of_settle_error hsettle with ⟨e, he⟩ | ⟨e, he⟩ <;>
        exact fun hlayout => nomatch he.symm.trans hlayout
    · cases h

/-- So no run does, whether hashers look on, … -/
theorem Comparer.outcome_ne_layout_of_hashedFrom {σ : Type} [Outlet σ] (c : Comparer)
    (p : Progress) (left right : Source) (output : σ) (log : Array LogEntry) (hashing : Hashing)
    (cause : LayoutError) :
    (c.hashedFrom p left right output log hashing).1.outcome ≠ .error (.layout cause) := by
  fun_induction hashedFrom c p left right output log hashing with
  | case1 c p left right output log hashing result hturn =>
    exact outcome_ne_layout_of_turn hturn cause
  | case2 c p left right output log hashing next p' left' right' output' log' hturn ih => exact ih

/-- … or the report is read back. -/
theorem Loopback.outcome_ne_layout_of_runFrom (loop : Loopback) {fuel : Nat} {c : Comparer}
    {p : Progress} {left right : Source} {spool : Spool} {log : Array LogEntry}
    {hashing hashing' : Hashing} {result : RunResult Spool}
    (h : loop.runFrom fuel c p left right spool log hashing = some (result, hashing'))
    (cause : LayoutError) : result.outcome ≠ .error (.layout cause) := by
  induction fuel generalizing c p left right spool log hashing with
  | zero => cases h
  | succ fuel ih =>
    rw [runFrom] at h
    split at h
    · next ended hturn =>
      cases h
      exact Comparer.outcome_ne_layout_of_turn hturn cause
    · exact ih h

/-- A comparison that has everything in place is not refused any more. -/
theorem Preparation.not_isRefusal_of_run (prep : Preparation) {e : FileError}
    (h : prep.run.outcome = .error e) : ¬e.IsRefusal := by
  have hfinish (result : RunResult Spool) (hashing : Hashing)
      (hlayout : ∀ cause, result.outcome ≠ .error (.layout cause))
      (hresult : (prep.finish result hashing).outcome = .error e) : ¬e.IsRefusal := by
    rw [finish, Target.outcome_deliver] at hresult
    split at hresult
    · cases hresult
    · next reason hreason =>
      cases hresult
      cases reason with
      | layout cause => exact absurd hreason (hlayout cause)
      | _ => exact not_false
  rw [run] at h
  split at h
  · rw [runLooped] at h
    split at h
    · cases h
      exact not_false
    · next result hashing hrun =>
      exact hfinish _ _ (prep.loopback.outcome_ne_layout_of_runFrom hrun) h
  · exact hfinish _ _ (prep.comparer.outcome_ne_layout_of_hashedFrom {} _ _ _ #[] {}) h

/-! ### Dumps -/

/-- A dump with a layout that is not valid writes nothing. -/
theorem Dump.run_of_check_eq_error {σ : Type} [Outlet σ] {layout : Layout} {e : LayoutError}
    (h : layout.check = .error e) (content : List UInt8) (first : Nat) (last : Option Nat)
    (output : σ) :
    run layout content first last output = ⟨.error (.layout e), output, #[]⟩ := by
  rw [run, h]

/-- A dump with a valid layout ends in nothing but a fault of its output. -/
theorem Dump.exists_fault_of_valid {σ : Type} [Outlet σ] {layout : Layout} (h : layout.Valid)
    {content : List UInt8} {first : Nat} {last : Option Nat} {output : σ} {e : ReportError}
    (hrun : (run layout content first last output).outcome = .error e) :
    ∃ fault, e = .fault fault := by
  rw [outcome_run, ending, layout.check_eq_ok_iff.mpr h] at hrun
  cases hwrite : (Outlet.writeAll output (pieces layout content first last)).1 with
  | error fault =>
    rw [hwrite] at hrun
    cases hrun
    exact ⟨fault, rfl⟩
  | ok _ =>
    rw [hwrite] at hrun
    cases hrun

section

variable {tree : FileTree} {layout : Layout} {input : String} {first : Nat} {last : Option Nat}
  {output : Option String}

/-- A dump that could not open a path has done nothing. -/
theorem tree_dumpFile_of_unopened {path : String} {fault : Fault}
    (h : (dumpFile tree layout input first last output).outcome = .error (.unopened path fault)) :
    (dumpFile tree layout input first last output).tree = tree := by
  rcases dumpFile_cases tree layout input first last output with
    ⟨e, -, hrun⟩ | ⟨content, target, after, -, -, hrun⟩
  · rw [hrun]
  · -- what fails once everything is open is the report
    rw [hrun, Target.outcome_deliver] at h
    obtain ⟨e, -, hreport⟩ := mapError_eq_error_iff.mp h
    cases hreport

/-- A dump that is refused because of its layout has opened its output, and delivers an empty
report to it. -/
theorem exists_dumpFile_eq_of_layout {cause : LayoutError}
    (h : (dumpFile tree layout input first last output).outcome =
      .error (.report (.layout cause))) :
    ∃ target after, tree.openOutput output = .ok (target, after) ∧
      dumpFile tree layout input first last output =
        target.deliver after (.error (.report (.layout cause))) #[] #[] := by
  rcases dumpFile_cases tree layout input first last output with
    ⟨e, hother, hrun⟩ | ⟨content, target, after, -, houtput, hrun⟩
  · rw [hrun] at h
    exact absurd (Except.error.inj h) (hother (.layout cause))
  · refine ⟨target, after, houtput, ?_⟩
    rw [hrun, Target.outcome_deliver] at h
    obtain ⟨e, hdump, hreport⟩ := mapError_eq_error_iff.mp h
    cases hreport
    have hcheck : layout.check = .error cause := by
      cases hcheck : layout.check with
      | ok _ =>
        obtain ⟨fault, hfault⟩ :=
          Dump.exists_fault_of_valid (layout.check_eq_ok_iff.mp hcheck) hdump
        cases hfault
      | error e =>
        rw [Dump.run_of_check_eq_error hcheck] at hdump
        cases hdump
        rfl
    rw [hrun, Dump.run_of_check_eq_error hcheck]
    rfl

end

/-! ### What refusals leave -/

namespace FileTree

/-- All files of two trees are the same. -/
def SameFiles (before after : FileTree) : Prop :=
  ∀ location, after.content? location = before.content? location

/-- A file that is written leaves all files the same if it had that content before. -/
theorem Rewritten.sameFiles_iff {before after : FileTree} {location : Location}
    {content : List UInt8} (h : before.Rewritten location content after) :
    before.SameFiles after ↔ before.content? location = some content := by
  constructor
  · intro hsame
    rw [← hsame location, h.content?_eq]
  · intro hbefore other
    by_cases hother : other = location
    · rw [hother, h.content?_eq, hbefore]
    · rw [content?, h.node?_of_ne other hother, content?]

end FileTree

/-- **Refused reports.**  Let a comparison or a dump be refused, because of its layout or because of
a path, whatever else is in order or not.  A comparison then leaves the tree as it was.  So does a
dump that could not open a path, or that goes to standard output.  A dump that is refused because of
its layout leaves an empty file at the place of its output and all else as it was; so all files are
the same as before exactly if there was an empty file already. -/
theorem refused_leaves_files (tree : FileTree) (layout : Layout) (output : Option String)
    {e : FileError} (hrefusal : e.IsRefusal) :
    (∀ left right, (diffFiles tree layout left right output).outcome = .error e →
        (diffFiles tree layout left right output).tree = tree) ∧
      ∀ input first last,
        let run := dumpFile tree layout input first last output
        run.outcome = .error e →
          ((∃ path fault, e = .unopened path fault) ∨ output = none → run.tree = tree) ∧
            ∀ cause path, e = .report (.layout cause) → output = some path →
              ∃ location, tree.place path = .ok location ∧ tree.Rewritten location [] run.tree ∧
                (tree.SameFiles run.tree ↔ tree.content? location = some []) := by
  constructor
  · intro left right houtcome
    rcases diffFiles_cases tree layout left right output with ⟨e', hrun⟩ | ⟨prep, -, hrun⟩
    · rw [hrun]
    · rw [hrun] at houtcome
      exact absurd hrefusal (prep.not_isRefusal_of_run houtcome)
  · intro input first last run houtcome
    -- a refusal because of the layout is delivered, in the other case nothing is in place
    have hdelivered (cause : LayoutError) (hcause : e = .report (.layout cause)) :
        (output = none ∧ run.tree = tree) ∨
          ∃ path location, output = some path ∧ tree.place path = .ok location ∧
            tree.Rewritten location [] run.tree := by
      obtain ⟨target, after, houtput, hrun⟩ := exists_dumpFile_eq_of_layout (hcause ▸ houtcome)
      have htree := FileTree.tree_deliver houtput
        (.error (.report (.layout cause)) : Except FileError Nat) #[] #[]
      rwa [← hrun] at htree
    refine ⟨?_, ?_⟩
    · rintro (⟨path, fault, rfl⟩ | hnone)
      · exact tree_dumpFile_of_unopened houtcome
      · match e, hrefusal with
        | .unopened path fault, _ => exact tree_dumpFile_of_unopened houtcome
        | .report (.layout cause), _ =>
          rcases hdelivered cause rfl with ⟨-, htree⟩ | ⟨path, location, hsome, -⟩
          · exact htree
          · cases hnone.symm.trans hsome
    · intro cause path hcause hsome
      rcases hdelivered cause hcause with ⟨hnone, -⟩ | ⟨path', location, hsome', hplace, hrewritten⟩
      · cases hnone.symm.trans hsome
      · obtain rfl : path' = path := Option.some.inj (hsome'.symm.trans hsome)
        exact ⟨location, hplace, hrewritten, hrewritten.sameFiles_iff⟩

/-- A comparison with an offset column that is too wide, a dump to a directory that there is not,
and dumps without an offset column, to standard output and to a file that is empty already. -/
theorem refused_leaves_files_each :
    let tree : FileTree := { entries := [
      (["in".toList], .file [65]), (["out".toList], .file [])] }
    (diffFiles tree ⟨4, 17, {}⟩ "in" "in" (some "out")).tree = tree ∧
      (dumpFile tree ⟨4, 4, {}⟩ "in" 0 none (some "sub/out")).tree = tree ∧
      (dumpFile tree ⟨4, 0, {}⟩ "in" 0 none none).tree = tree ∧
      tree.SameFiles (dumpFile tree ⟨4, 0, {}⟩ "in" 0 none (some "out")).tree := by
  intro tree
  have hwidth : (diffFiles tree ⟨4, 17, {}⟩ "in" "in" (some "out")).outcome =
      .error (.report (.layout (.offsetWidth 17))) := by decide +kernel
  have hpath : (dumpFile tree ⟨4, 4, {}⟩ "in" 0 none (some "sub/out")).outcome =
      .error (.unopened "sub/out" .notFound) := by decide +kernel
  have hcolumn : (dumpFile tree ⟨4, 0, {}⟩ "in" 0 none none).outcome =
      .error (.report (.layout (.offsetWidth 0))) := by decide +kernel
  have hcolumn' : (dumpFile tree ⟨4, 0, {}⟩ "in" 0 none (some "out")).outcome =
      .error (.report (.layout (.offsetWidth 0))) := by decide +kernel
  have hlayout (n : Nat) : (FileError.report (.layout (.offsetWidth n))).IsRefusal := trivial
  have hunopened : (FileError.unopened "sub/out" .notFound).IsRefusal := trivial
  obtain ⟨location, hplace, -, hsame⟩ := ((refused_leaves_files tree ⟨4, 0, {}⟩ (some "out")
    (hlayout 0)).2 _ _ _ hcolumn').2 _ _ rfl rfl
  have hlocation : location = ["out".toList] := by
    have hout : tree.place "out" = .ok ["out".toList] := by decide +kernel
    exact Except.ok.inj (hplace.symm.trans hout)
  have hempty : tree.content? location = some [] := by
    rw [hlocation]
    decide +kernel
  exact ⟨(refused_leaves_files tree ⟨4, 17, {}⟩ (some "out") (hlayout 17)).1 _ _ hwidth,
    ((refused_leaves_files tree ⟨4, 4, {}⟩ (some "sub/out") hunopened).2 _ _ _ hpath).1
      (.inl ⟨_, _, rfl⟩),
    ((refused_leaves_files tree ⟨4, 0, {}⟩ none (hlayout 0)).2 _ _ _ hcolumn).1 (.inr rfl),
    hsame.mpr hempty⟩

/-- A dump that is refused because of its line length, and whose output held a byte before. -/
theorem dumpFile_refused_empties_output :
    let tree : FileTree := { entries := [
      (["in".toList], .file [65]), (["out".toList], .file [88])] }
    let run := dumpFile tree ⟨0, 6, {}⟩ "in" 0 none (some "out")
    run.outcome = .error (.report (.layout (.lineLength 0))) ∧
      tree.content? ["out".toList] = some [88] ∧ run.tree.content? ["out".toList] = some [] := by
  decide +kernel

end HexDiff
