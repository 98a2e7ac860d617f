import HexDiff.Files.Report
import HexDiff.Proofs.Comparer.Report
import HexDiff.Proofs.Hashing

/-!
# Comparing files

A comparison of files differs from one of contents in everything around it: the contents come in
pieces, hashers look on, and the report goes to its file through a spool.  None of this shows.  As
long as the report does not go to one of the files compared, the file that it goes to holds the
report on the two contents, and all other files are as before (`diffFiles_of_apart`).
-/

namespace HexDiff

/-! ### Files that reports go to -/

namespace FileTree

variable {tree : FileTree} {location : Location}

/-- The root is no place for a file. -/
theorem ne_nil_of_place {path : String} (h : tree.place path = .ok location) : location ≠ [] := by
  revert h
  fun_cases place tree path with
  | case6 hrefusal backwards name before hname parent hwalk found hdirectory hlong =>
    intro hfound
    rw [← Except.ok.inj hfound]
    exact List.append_ne_nil_of_right_ne_nil parent (List.cons_ne_nil name [])
  | _ => rintro ⟨⟩

/-- A file that was put somewhere has its content. -/
theorem content?_put_self (h : location ≠ []) (content : List UInt8) :
    (tree.put location (.file content)).content? location = some content := by
  rw [content?, node?_put_self tree _ h]
  rfl

end FileTree

/-- A spool takes everything. -/
def Outlet.losslessSpool : Outlet.Lossless Spool where
  Open _ := True
  arrived spool := spool.flush.flushed.toList
  write_of_open {spool} _ piece :=
    ⟨spool.write (utf8 piece), rfl, trivial, spool.toList_written_write (utf8 piece)⟩

/-! ### Comparisons with everything in place -/

namespace Preparation

variable {tree : FileTree} {layout : Layout} {style : LineStyle} {left right output : String}

/-- What is in place if nothing is refused: the inputs as they were found, and an empty output. -/
theorem make_eq_ok {comparer : Comparer} {leftAt rightAt location : Location}
    {leftNode rightNode : Node} (hcomparer : Comparer.ofLayout? layout = .ok comparer)
    (hleft : tree.find left = .ok (leftAt, leftNode))
    (hright : tree.find right = .ok (rightAt, rightNode))
    (houtput : tree.place output = .ok location) :
    make tree layout left right (some output) =
      .ok ⟨comparer, ⟨leftAt, leftNode⟩, ⟨rightAt, rightNode⟩, .file location,
        tree.put location (.file [])⟩ := by
  have hopenLeft : tree.openInput left = .ok ⟨leftAt, leftNode⟩ := by
    rw [FileTree.openInput, hleft]
  have hopenRight : tree.openInput right = .ok ⟨rightAt, rightNode⟩ := by
    rw [FileTree.openInput, hright]
  have hopenOutput : tree.openOutput (some output) =
      .ok (.file location, tree.put location (.file [])) := by
    rw [FileTree.openOutput, FileTree.create, houtput]
  rw [make, hcomparer, hopenLeft, hopenRight, hopenOutput]
  rfl

/-- A report that goes to none of the inputs is not read back. -/
theorem run_of_apart (prep : Preparation) (hleft : prep.target ≠ .file prep.left.location)
    (hright : prep.target ≠ .file prep.right.location) : prep.run = prep.runApart := by
  have hany : prep.loopback.any = false := by
    simp [loopback, Target.loopback, Loopback.any, hleft, hright]
  rw [run, hany]
  rfl

/-- Two files that the report does not go to: the counters are those of the contents, the digests
are those of the whole contents, and the report on the contents is brought to where it goes. -/
theorem exists_runApart_eq (prep : Preparation) (hc : Comparer.Fits layout style prep.comparer)
    (hwidth : style.offsetWidth ≤ Hex.maxWidth) {lft rgt : List UInt8}
    (hleft : prep.left.node = .file lft) (hright : prep.right.node = .file rgt) :
    ∃ log, prep.runApart =
      prep.target.deliver prep.tree
        (.ok ⟨.ofContents layout.lineLength lft rgt, sha256 lft, sha256 rgt⟩)
        (utf8 (reportText layout style lft rgt)).toArray log := by
  have hlft : prep.left.node.source.Delivers lft none := by
    rw [hleft]
    exact Source.delivers_inPieces bufferSize lft
  have hrgt : prep.right.node.source.Delivers rgt none := by
    rw [hright]
    exact Source.delivers_inPieces bufferSize rgt
  have hopen : Outlet.losslessSpool.Open ({} : Spool) := trivial
  obtain ⟨houtcome, harrived⟩ :=
    Comparer.run_of_lossless hc hlft hrgt (Or.inl hwidth) Outlet.losslessSpool hopen
  obtain ⟨hdigest, hdigest'⟩ := Comparer.digest_hashedRun hc hlft hrgt houtcome
  have hlooked : (prep.comparer.hashedRun prep.left.node.source prep.right.node.source
      ({} : Spool)).1 =
      prep.comparer.run prep.left.node.source prep.right.node.source ({} : Spool) :=
    prep.comparer.hashedFrom_fst {} _ _ _ #[] {}
  have hflushed : (prep.comparer.run prep.left.node.source prep.right.node.source
      ({} : Spool)).output.flush.flushed = (utf8 (reportText layout style lft rgt)).toArray :=
    Array.toList_inj.mp harrived
  refine ⟨(prep.comparer.run prep.left.node.source prep.right.node.source ({} : Spool)).log, ?_⟩
  rw [runApart]
  dsimp only
  rw [hlooked, finish, houtcome, hdigest, hdigest', hflushed]

end Preparation

section

variable {tree : FileTree} {layout : Layout} {left right output : String}
  {leftAt rightAt outputAt : Location} {lft rgt : List UInt8}

/-- What comes of a comparison of two files: the output is emptied at first, and the report on the
contents is put there in the end. -/
theorem exists_diffFiles_eq (hvalid : layout.Valid)
    (hleft : tree.find left = .ok (leftAt, .file lft))
    (hright : tree.find right = .ok (rightAt, .file rgt))
    (houtput : tree.place output = .ok outputAt)
    (hapartLeft : outputAt ≠ leftAt) (hapartRight : outputAt ≠ rightAt) :
    ∃ log, diffFiles tree layout left right (some output) =
      { outcome := .ok ⟨.ofContents layout.lineLength lft rgt, sha256 lft, sha256 rgt⟩
        tree := (tree.put outputAt (.file [])).put outputAt
          (.file (utf8 (reportText layout (.ofLayout layout) lft rgt)))
        log } := by
  obtain ⟨comparer, hcomparer⟩ : ∃ c, Comparer.ofStyle? layout (.ofLayout layout) = .ok c :=
    Comparer.exists_ofStyle?_iff.mpr ⟨hvalid, rfl⟩
  let prep : Preparation := ⟨comparer, ⟨leftAt, .file lft⟩, ⟨rightAt, .file rgt⟩, .file outputAt,
    tree.put outputAt (.file [])⟩
  have hmake : Preparation.make tree layout left right (some output) = .ok prep :=
    Preparation.make_eq_ok hcomparer hleft hright houtput
  have hapart : prep.run = prep.runApart :=
    prep.run_of_apart (by simpa [prep] using hapartLeft) (by simpa [prep] using hapartRight)
  obtain ⟨log, hrun⟩ := prep.exists_runApart_eq (Comparer.fits_of_ofStyle? hcomparer)
    (LineStyle.offsetWidth_ofLayout_le hvalid) rfl rfl
  refine ⟨log, ?_⟩
  rw [diffFiles, hmake]
  exact hapart.trans hrun

/-- **Two files and their report.**  Let two paths lead to files, and a third one to a place for a
file that is neither of them.  With a valid layout the comparison succeeds.  Its counters are those
of a comparison of the contents in memory, and its digests are those of the whole contents.  The
place of the report then holds a file with the report on the contents as a text, in the bytes that
encode it, nothing else in the tree has changed, and nothing is printed. -/
theorem diffFiles_of_apart (hvalid : layout.Valid)
    (hleft : tree.find left = .ok (leftAt, .file lft))
    (hright : tree.find right = .ok (rightAt, .file rgt))
    (houtput : tree.place output = .ok outputAt)
    (hapartLeft : outputAt ≠ leftAt) (hapartRight : outputAt ≠ rightAt) :
    ∃ result stats text, compareBytes layout lft rgt "" = .ok result ∧
      result.outcome = .ok stats ∧ diffText layout lft rgt = .ok text ∧
      let run := diffFiles tree layout left right (some output)
      run.outcome = .ok ⟨stats, sha256 lft, sha256 rgt⟩ ∧
        run.tree.content? outputAt = some text.toUTF8.data.toList ∧
        (∀ other, other ≠ outputAt → run.tree.node? other = tree.node? other) ∧
        run.printed = #[] := by
  obtain ⟨result, hresult, hstats, -⟩ := exists_compareBytes_text_eq hvalid lft rgt
  obtain ⟨log, hrun⟩ :=
    exists_diffFiles_eq hvalid hleft hright houtput hapartLeft hapartRight
  refine ⟨result, _, _, hresult, hstats, diffText_of_valid hvalid lft rgt, ?_⟩
  rw [hrun]
  refine ⟨rfl, ?_, ?_, rfl⟩
  · rw [← utf8_toList, String.toList_ofList]
    exact FileTree.content?_put_self (FileTree.ne_nil_of_place houtput) _
  · intro other hother
    rw [FileTree.node?_put_of_ne _ _ hother, FileTree.node?_put_of_ne _ _ hother]

/-- Five bytes against four of them, four to a line, with the report going to a file that there is
already: it gets the lines of the second block in place of what it held. -/
theorem diffFiles_of_apart_shorter :
    let tree : FileTree := { entries := [
      (["a".toList], .file [65, 65, 65, 65, 65]), (["d".toList], .directory),
      (["d".toList, "b".toList], .file [65, 65, 65, 65]), (["out".toList], .file [88])] }
    let run := diffFiles tree ⟨4, 4, {}⟩ "a" "d/../d/b" (some "./out")
    (∃ stats, run.outcome = .ok ⟨stats, sha256 [65, 65, 65, 65, 65], sha256 [65, 65, 65, 65]⟩) ∧
      run.tree.content? ["out".toList] =
        some "\n0004:  (41)-- -- -- \n0004:  (--)-- -- -- \n".toUTF8.data.toList ∧
      run.tree.content? ["a".toList] = some [65, 65, 65, 65, 65] := by
  intro tree run
  have hleft : tree.find "a" = .ok (["a".toList], .file [65, 65, 65, 65, 65]) := by decide +kernel
  have hright : tree.find "d/../d/b" = .ok (["d".toList, "b".toList], .file [65, 65, 65, 65]) := by
    decide +kernel
  have houtput : tree.place "./out" = .ok ["out".toList] := by decide +kernel
  have hvalid : Layout.Valid ⟨4, 4, {}⟩ := by decide
  obtain ⟨_, stats, text, -, -, htext, houtcome, hreport, hothers, -⟩ :=
    diffFiles_of_apart hvalid hleft hright houtput (by decide) (by decide)
  have hsame : diffText ⟨4, 4, {}⟩ [65, 65, 65, 65, 65] [65, 65, 65, 65] =
      .ok "\n0004:  (41)-- -- -- \n0004:  (--)-- -- -- \n" := by
    rw [diffText_of_valid hvalid]
    decide +kernel
  obtain rfl : text = "\n0004:  (41)-- -- -- \n0004:  (--)-- -- -- \n" :=
    Except.ok.inj (htext.symm.trans hsame)
  refine ⟨⟨stats, houtcome⟩, hreport, ?_⟩
  rw [FileTree.content?, hothers _ (by decide)]
  rfl

end

end HexDiff
