import HexDiff.Proofs.Chains
import HexDiff.Proofs.Files.Comparison

/-!
# What reports do to files

A report on files goes to one place, and nothing else in the tree changes
(`FileTree.Rewritten`).  If it goes to standard output, or is refused early enough, nothing changes
at all.  This is all that a comparison or a dump can do to a tree (`reported_diffFiles`,
`reported_dumpFile`).

Whether a file would be overwritten can be seen beforehand: a path at which a file could be
created leads to what is there already, if there is anything (`FileTree.find_of_place`).
-/

namespace HexDiff

namespace FileTree

variable {tree before after : FileTree} {location : Location} {content : List UInt8}

/-! ### What is found at the place of an output -/

/-- Walking on from where some segments lead. -/
theorem walk_append (tree : FileTree) (location : Location) (front back : List Name) :
    tree.walk location (front ++ back) =
      (tree.walk location front).bind fun there => tree.walk there back := by
  induction front generalizing location with
  | nil => rfl
  | cons segment rest ih =>
    rw [List.cons_append, walk, walk]
    split
    · split
      · rfl
      · exact ih _
    · rfl
    · rfl

/-- A single segment is followed from a directory, if it is not too long. -/
theorem walk_singleton (tree : FileTree) (location : Location) (segment : Name) :
    tree.walk location [segment] =
      match tree.node? location with
      | some .directory =>
        if isTooLong segment then .error .nameTooLong else .ok (follow location segment)
      | some (.file _) => .error .notADirectory
      | none => .error .notFound := rfl

/-- A place for a file comes from a path that ends in a name, and the walk along the other segments
leads to the directory of the place. -/
theorem exists_of_place {path : String} (h : tree.place path = .ok location) :
    ∃ front parent name, refusal? path.toList = none ∧
      path.toList.splitOn '/' = front ++ [name] ∧
      tree.walk (tree.start path.toList) front = .ok parent ∧
      tree.node? parent = some .directory ∧ isTooLong name = false ∧
      follow parent name = parent ++ [name] ∧ location = parent ++ [name] := by
  revert h
  fun_cases place tree path with
  | case6 hrefusal backwards name before hname parent hwalk found hdirectory hlong =>
    intro hfound
    obtain rfl : found = location := Except.ok.inj hfound
    obtain ⟨hdot, hdots, hslash, -⟩ : name ≠ ['.'] ∧ name ≠ ['.', '.'] ∧
        backwards.head? ≠ some [] ∧ tree.node? found ≠ some .directory := by
      simpa only [not_or] using hdirectory
    -- there is no slash at the end, so no empty segment was dropped
    obtain ⟨last, rest, hlast⟩ : ∃ last rest, backwards = last :: rest := by
      refine List.exists_cons_of_ne_nil fun hnil => ?_
      rw [hnil] at hname
      cases hname
    have hne : last ≠ [] := by
      rintro rfl
      exact hslash (by rw [hlast]; rfl)
    obtain ⟨rfl, rfl⟩ : last = name ∧ rest = before := by
      rw [hlast, List.dropWhile_cons_of_neg (by simpa using hne)] at hname
      exact List.cons.inj hname
    have hsegments : path.toList.splitOn '/' = rest.reverse ++ [last] := by
      rw [← List.reverse_cons, ← hlast, List.reverse_reverse]
    rw [walk_append] at hwalk
    cases hfront : tree.walk (tree.start path.toList) rest.reverse with
    | error fault =>
      rw [hfront] at hwalk
      cases hwalk
    | ok there =>
      rw [hfront] at hwalk
      have hthere : tree.walk there [[]] = .ok parent := hwalk
      rw [walk_singleton] at hthere
      split at hthere
      · next hdir =>
        obtain rfl : there = parent := Except.ok.inj hthere
        have hfollow : follow there last = there ++ [last] := by
          rw [follow, if_neg (not_or.mpr ⟨hne, hdot⟩), if_neg hdots]
        exact ⟨rest.reverse, there, last, hrefusal, hsegments, hfront, hdir,
          Bool.eq_false_of_not_eq_true hlong, hfollow, rfl⟩
      · cases hthere
      · cases hthere
  | _ => rintro ⟨⟩

/-- A path at which a file could be created leads to what is there, if there is anything. -/
theorem find_of_place {path : String} (h : tree.place path = .ok location) :
    tree.find path =
      match tree.node? location with
      | some node => .ok (location, node)
      | none => .error .notFound := by
  obtain ⟨front, parent, name, hrefusal, hsegments, hfront, hparent, hlong, hfollow, hlocation⟩ :=
    exists_of_place h
  have hwalk : tree.walk (tree.start path.toList) (front ++ [name]) = .ok location := by
    rw [walk_append, hfront]
    show tree.walk parent [name] = .ok location
    rw [walk_singleton, hparent, hlong, hlocation, ← hfollow]
    rfl
  cases hnode : tree.node? location with
  | some node => simp only [find, hrefusal, hsegments, hwalk, hnode]
  | none => simp only [find, hrefusal, hsegments, hwalk, hnode]

/-! ### Trees before and after -/

/-- A tree in which there is a file with some content at one place, and all else is as before. -/
structure Rewritten (before : FileTree) (location : Location) (content : List UInt8)
    (after : FileTree) : Prop where
  content?_eq : after.content? location = some content
  node?_of_ne : ∀ other, other ≠ location → after.node? other = before.node? other

/-- Putting a file somewhere rewrites the tree there. -/
theorem rewritten_put (before : FileTree) (h : location ≠ []) (content : List UInt8) :
    before.Rewritten location content (before.put location (.file content)) where
  content?_eq := content?_put_self h content
  node?_of_ne _ hother := node?_put_of_ne _ _ hother

/-- Putting another file there leaves it rewritten. -/
theorem Rewritten.put (hrewritten : before.Rewritten location content after) (h : location ≠ [])
    (content' : List UInt8) :
    before.Rewritten location content' (after.put location (.file content')) where
  content?_eq := content?_put_self h content'
  node?_of_ne other hother := by
    rw [node?_put_of_ne _ _ hother, hrewritten.node?_of_ne other hother]

/-- All that a report may do to a tree: nothing, or to rewrite the place of its output. -/
def Reported (before : FileTree) (output : Option String) (after : FileTree) : Prop :=
  after = before ∨
    ∃ path location content, output = some path ∧ before.place path = .ok location ∧
      before.Rewritten location content after

/-! ### Opening an output -/

/-- What it takes to open an output, and what comes of it. -/
theorem openOutput_eq_ok {output : Option String} {target : Target}
    (h : before.openOutput output = .ok (target, after)) :
    (output = none ∧ target = .standard ∧ after = before) ∨
      ∃ path location, output = some path ∧ before.place path = .ok location ∧
        target = .file location ∧ after = before.put location (.file []) := by
  cases output with
  | none =>
    cases h
    exact .inl ⟨rfl, rfl, rfl⟩
  | some path =>
    rw [openOutput, create] at h
    cases hplace : before.place path with
    | error fault =>
      rw [hplace] at h
      cases h
    | ok location =>
      rw [hplace] at h
      cases h
      exact .inr ⟨path, location, rfl, hplace, rfl, rfl⟩

/-- An output that has been opened is empty as yet. -/
theorem reported_of_openOutput {output : Option String} {target : Target}
    (h : before.openOutput output = .ok (target, after)) : before.Reported output after := by
  rcases openOutput_eq_ok h with ⟨-, -, rfl⟩ | ⟨path, location, houtput, hplace, -, rfl⟩
  · exact .inl rfl
  · exact .inr ⟨path, location, [], houtput, hplace,
      rewritten_put before (ne_nil_of_place hplace) []⟩

/-- Delivering a report to an output that has been opened: standard output leaves the tree alone,
and a file has the report as its content. -/
theorem tree_deliver {α : Type} {output : Option String} {target : Target}
    (h : before.openOutput output = .ok (target, after)) (outcome : Except FileError α)
    (report : Array UInt8) (log : Array LogEntry) :
    (output = none ∧ (target.deliver after outcome report log).tree = before) ∨
      ∃ path location, output = some path ∧ before.place path = .ok location ∧
        before.Rewritten location report.toList
          (target.deliver after outcome report log).tree := by
  rcases openOutput_eq_ok h with ⟨rfl, rfl, rfl⟩ | ⟨path, location, rfl, hplace, rfl, rfl⟩
  · exact .inl ⟨rfl, rfl⟩
  · have hne := ne_nil_of_place hplace
    exact .inr ⟨path, location, rfl, hplace, (rewritten_put before hne []).put hne report.toList⟩

/-- Delivering a report does what a report may do. -/
theorem reported_deliver {α : Type} {output : Option String} {target : Target}
    (h : before.openOutput output = .ok (target, after)) (outcome : Except FileError α)
    (report : Array UInt8) (log : Array LogEntry) :
    before.Reported output (target.deliver after outcome report log).tree := by
  rcases tree_deliver h outcome report log with ⟨-, htree⟩ | ⟨path, location, hrest⟩
  · exact .inl htree
  · exact .inr ⟨path, location, report.toList, hrest⟩

end FileTree

/-! ### Comparisons and dumps -/

/-- Delivering a report does not change how it ended. -/
@[simp] theorem Target.outcome_deliver {α : Type} (target : Target) (tree : FileTree)
    (outcome : Except FileError α) (report : Array UInt8) (log : Array LogEntry) :
    (target.deliver tree outcome report log).outcome = outcome := by
  cases target <;> rfl

section

variable {tree : FileTree} {layout : Layout} {left right input : String} {output : Option String}

/-- What it takes to open an input. -/
theorem FileTree.find_of_openInput {path : String} {opened : Input}
    (h : tree.openInput path = .ok opened) :
    tree.find path = .ok (opened.location, opened.node) := by
  rw [openInput] at h
  split at h
  · next location node hfind =>
    cases h
    exact hfind
  · cases h

/-- What it takes to put everything in place for a comparison, and what is in place then. -/
theorem Preparation.exists_of_make {prep : Preparation}
    (h : make tree layout left right output = .ok prep) :
    Comparer.ofLayout? layout = .ok prep.comparer ∧
      tree.find left = .ok (prep.left.location, prep.left.node) ∧
      tree.find right = .ok (prep.right.location, prep.right.node) ∧
      tree.openOutput output = .ok (prep.target, prep.tree) := by
  rw [make] at h
  obtain ⟨comparer, hcomparer, h⟩ := bind_eq_ok_iff.mp h
  obtain ⟨leftInput, hleft, h⟩ := bind_eq_ok_iff.mp h
  obtain ⟨rightInput, hright, h⟩ := bind_eq_ok_iff.mp h
  obtain ⟨opened, houtput, h⟩ := bind_eq_ok_iff.mp h
  cases h
  exact ⟨mapError_eq_ok_iff.mp hcomparer, FileTree.find_of_openInput hleft,
    FileTree.find_of_openInput hright, houtput⟩

/-- A comparison that does not get everything in place fails and does nothing. -/
theorem diffFiles_cases (tree : FileTree) (layout : Layout) (left right : String)
    (output : Option String) :
    (∃ e, diffFiles tree layout left right output = { outcome := .error e, tree }) ∨
      ∃ prep, Preparation.make tree layout left right output = .ok prep ∧
        diffFiles tree layout left right output = prep.run := by
  rw [diffFiles]
  cases Preparation.make tree layout left right output with
  | error e => exact .inl ⟨e, rfl⟩
  | ok prep => exact .inr ⟨prep, rfl, rfl⟩

/-- An input that cannot be read is nothing that a report complains of. -/
theorem FileTree.ne_report_of_readFile {path : String} {e : FileError}
    (h : tree.readFile path = .error e) (r : ReportError) : e ≠ .report r := by
  rw [readFile, openInput] at h
  cases hfind : tree.find path with
  | error fault =>
    rw [hfind] at h
    cases h
    rintro ⟨⟩
  | ok found =>
    obtain ⟨location, node⟩ := found
    rw [hfind] at h
    cases node with
    | file content => cases h
    | directory =>
      cases h
      rintro ⟨⟩

/-- Nor is an output that cannot be opened. -/
theorem FileTree.ne_report_of_openOutput {e : FileError} (h : tree.openOutput output = .error e)
    (r : ReportError) : e ≠ .report r := by
  cases output with
  | none => cases h
  | some path =>
    rw [openOutput, create] at h
    cases hplace : tree.place path with
    | error fault =>
      rw [hplace] at h
      cases h
      rintro ⟨⟩
    | ok location =>
      rw [hplace] at h
      cases h

/-- A dump that cannot read its input or open its output fails because of that, and does
nothing. -/
theorem dumpFile_cases (tree : FileTree) (layout : Layout) (input : String) (first : Nat)
    (last : Option Nat) (output : Option String) :
    (∃ e, (∀ r, e ≠ .report r) ∧
        dumpFile tree layout input first last output = { outcome := .error e, tree }) ∨
      ∃ content target after, tree.readFile input = .ok content ∧
        tree.openOutput output = .ok (target, after) ∧
        dumpFile tree layout input first last output =
          let result := Dump.run layout content first last ({} : Spool)
          target.deliver after (result.outcome.mapError .report) result.output.flush.flushed
            result.log := by
  rw [dumpFile]
  cases hread : tree.readFile input with
  | error e => exact .inl ⟨e, FileTree.ne_report_of_readFile hread, rfl⟩
  | ok content =>
    cases hopen : tree.openOutput output with
    | error e => exact .inl ⟨e, FileTree.ne_report_of_openOutput hopen, rfl⟩
    | ok opened => exact .inr ⟨content, opened.1, opened.2, rfl, rfl, rfl⟩

/-- A comparison does to the tree what a report may do. -/
theorem reported_diffFiles (tree : FileTree) (layout : Layout) (left right : String)
    (output : Option String) :
    tree.Reported output (diffFiles tree layout left right output).tree := by
  rcases diffFiles_cases tree layout left right output with ⟨e, hrun⟩ | ⟨prep, hmake, hrun⟩
  · exact .inl (by rw [hrun])
  · obtain ⟨-, -, -, houtput⟩ := Preparation.exists_of_make hmake
    have hfinish (result : RunResult Spool) (hashing : Hashing) :
        tree.Reported output (prep.finish result hashing).tree :=
      FileTree.reported_deliver houtput _ _ _
    rw [hrun, Preparation.run]
    split
    · rw [Preparation.runLooped]
      split
      · exact FileTree.reported_of_openOutput houtput
      · exact hfinish _ _
    · exact hfinish _ _

/-- So does a dump. -/
theorem reported_dumpFile (tree : FileTree) (layout : Layout) (input : String) (first : Nat)
    (last : Option Nat) (output : Option String) :
    tree.Reported output (dumpFile tree layout input first last output).tree := by
  rcases dumpFile_cases tree layout input first last output with
    ⟨e, -, hrun⟩ | ⟨content, target, after, -, houtput, hrun⟩
  · exact .inl (by rw [hrun])
  · rw [hrun]
    exact FileTree.reported_deliver houtput _ _ _

end

end HexDiff
