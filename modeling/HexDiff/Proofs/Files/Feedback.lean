import HexDiff.Proofs.Files.Outputs

/-!
# Comparisons that report into an input

What a comparison of files tells of an input, its length and its digest, is right if the report does
not go to that input.  The file that the report goes to is emptied before anything is read from it,
so nothing is told of what it held: what is told instead is about the report itself, as far as it
had come to the file when the comparison ended (`diffFiles_tells_inputs`,
`diffFiles_over_input_tells_nothing`).

The invariant is about one side at a time (`Loopback.Side`).  What was read from it has been counted
and hashed, and together with what the stream still has it makes up a whole.  The whole is the
content of an input that stays as it is, and what has come to the file so far if the input is the
file of the report.
-/

namespace HexDiff

/-! ### Streams that grow -/

namespace Source

/-- A stream that goes on up to its end does so after some data was taken. -/
theorem goesOn_fill (room : Nat) {source : Source} (h : ∀ event ∈ source, event.GoesOn) :
    ∀ event ∈ (fill room source).rest, event.GoesOn := by
  fun_induction fill room source with
  | case1 => exact h
  | case2 => exact h
  | case3 room rest => exact (List.forall_mem_cons.mp h).2
  | case4 room b bytes rest hdrop more ih => exact ih (List.forall_mem_cons.mp h).2
  | case5 room b bytes rest hdrop =>
    exact List.forall_mem_cons.mpr ⟨hdrop, (List.forall_mem_cons.mp h).2⟩
  | case6 room rest => exact (List.forall_mem_cons.mp h).2
  | case7 room fault rest hkind ih => exact ih (List.forall_mem_cons.mp h).2
  | case8 room fault rest hkind => exact (List.forall_mem_cons.mp h).2

/-- A stream made from some bytes in pieces goes on up to its end. -/
theorem goesOn_inPieces (size : Nat) (bytes : List UInt8) :
    ∀ event ∈ inPieces size bytes, event.GoesOn := by
  fun_induction inPieces size bytes with
  | case1 => exact List.forall_mem_nil _
  | case2 b rest ih => exact List.forall_mem_cons.mpr ⟨List.cons_ne_nil _ _, ih⟩

/-- Its data are these bytes. -/
theorem data_inPieces (size : Nat) (bytes : List UInt8) : (inPieces size bytes).data = bytes := by
  fun_induction inPieces size bytes with
  | case1 => rfl
  | case2 b rest ih =>
    show (b :: rest.take (size - 1)) ++ data (inPieces size (rest.drop (size - 1))) = b :: rest
    rw [ih, List.cons_append, List.take_append_drop]

/-- A stream that goes on has nothing left if a window gets nothing from it. -/
theorem data_eq_nil_of_taken {room : Nat} (hroom : 1 ≤ room) {source : Source}
    (h : ∀ event ∈ source, event.GoesOn) (htaken : (fill room source).taken = []) :
    source.data = [] := by
  rw [(fill_of_delivers (delivers_data h) room).1, List.take_eq_nil_iff] at htaken
  exact htaken.resolve_left (by omega)

end Source

/-- What was written to a spool may have brought something more to the file. -/
theorem Spool.flushed_write (spool : Spool) (piece : List UInt8) :
    (spool.write piece).flushed.toList =
      spool.flushed.toList ++ (spool.write piece).newSince spool := by
  obtain ⟨more, hmore⟩ : ∃ more, (spool.write piece).flushed = spool.flushed ++ more := by
    rw [write]
    split
    · exact ⟨#[], by simp [hold]⟩
    · split <;> split <;> simp [hold, flush, written, Array.append_assoc]
  rw [newSince, hmore]
  simp

/-- A spool gets the piece for a block that differs, and nothing for one that does not. -/
theorem Comparer.spool_of_settle {c next : Comparer} {p : Progress} {block : Block}
    {spool spool' : Spool} {log log' : Array LogEntry}
    (h : c.settle p block spool log = .ok (next, spool', log')) :
    (¬block.mask.differs ∧ spool' = spool) ∨
      (c.style.offsetWidth ≤ Hex.maxWidth ∧ spool' = spool.write (utf8 (c.blockReport p block))) := by
  by_cases hdiffers : block.mask.differs
  · rcases Nat.lt_or_ge Hex.maxWidth c.style.offsetWidth with hwide | hwidth
    · rw [settle_of_overwide hwide hdiffers] at h
      cases h
    · rw [settle_of_differs hwidth hdiffers] at h
      cases h
      exact Or.inr ⟨hwidth, rfl⟩
  · rw [settle_of_not_differs hdiffers] at h
    cases h
    exact Or.inl ⟨hdiffers, rfl⟩

/-- Whatever becomes of a block, all that the file has got more is new since then. -/
theorem Comparer.flushed_of_settle {c next : Comparer} {p : Progress} {block : Block}
    {spool spool' : Spool} {log log' : Array LogEntry}
    (h : c.settle p block spool log = .ok (next, spool', log')) :
    spool'.flushed.toList = spool.flushed.toList ++ spool'.newSince spool := by
  rcases spool_of_settle h with ⟨-, rfl⟩ | ⟨-, rfl⟩
  · simp [Spool.newSince]
  · exact spool.flushed_write _

/-- What the streams have left after a block is what its windows did not take. -/
theorem Comparer.rest_of_step_eq_compared {c next : Comparer} {left right left' right' : Source}
    {block : Block} (h : c.step left right = .compared block next left' right') :
    left' = (left.fill c.left.length).rest ∧ right' = (right.fill c.right.length).rest := by
  rw [step_eq_react, react] at h
  split at h
  · cases h
  · cases h
  · split at h
    · cases h
    · cases h
      exact ⟨rfl, rfl⟩

namespace Loopback

/-! ### One side -/

/-- What a side reads as a whole: what has come to the file by now if the report goes there, and
otherwise the content that was found. -/
def whole (looped : Bool) (spool : Spool) (content : List UInt8) : List UInt8 :=
  if looped then spool.flushed.toList else content

/-- One side in the middle of a comparison. -/
structure Side (source : Source) (hasher : Sha256.Hasher) (count : Nat) (bytes : List UInt8) :
    Prop where
  goesOn : ∀ event ∈ source, event.GoesOn
  exists_read : ∃ read, hasher.Holds read ∧ count = read.length ∧ read ++ source.data = bytes

namespace Side

variable {source : Source} {hasher : Sha256.Hasher} {count : Nat} {bytes : List UInt8}

/-- Before anything was read. -/
theorem start (looped : Bool) (content : List UInt8) :
    Side (initial looped (.inPieces bufferSize content)) {} 0 (whole looped {} content) := by
  cases looped with
  | true => exact ⟨List.forall_mem_nil _, [], Sha256.Hasher.holds_nil, rfl, rfl⟩
  | false =>
    exact ⟨Source.goesOn_inPieces _ _, [], Sha256.Hasher.holds_nil, rfl,
      Source.data_inPieces _ _⟩

/-- After a window was filled, and the reads for it have been hashed. -/
theorem fill (h : Side source hasher count bytes) (room : Nat) :
    Side (source.fill room).rest ((source.reads room).foldl Sha256.Hasher.update hasher)
      (count + (source.fill room).taken.length) bytes := by
  obtain ⟨read, hread, rfl, rfl⟩ := h.exists_read
  refine ⟨Source.goesOn_fill room h.goesOn, read ++ (source.fill room).taken, ?_, ?_, ?_⟩
  · rw [← Source.flatten_reads]
    exact hread.foldl_update _
  · rw [List.length_append]
  · rw [List.append_assoc, Source.data_fill]

/-- After something more has come to the file. -/
theorem feed (looped : Bool) {spool spool' : Spool} {content : List UInt8}
    (hspool : spool'.flushed.toList = spool.flushed.toList ++ spool'.newSince spool)
    (h : Side source hasher count (whole looped spool content)) :
    Side (feed looped (spool'.newSince spool) source) hasher count
      (whole looped spool' content) := by
  cases looped with
  | false =>
    rw [Loopback.feed, if_neg (by simp)]
    exact h
  | true =>
    obtain ⟨read, hread, hcount, hwhole⟩ := h.exists_read
    by_cases hnil : spool'.newSince spool = []
    · rw [hnil, List.append_nil] at hspool
      rw [Loopback.feed, if_neg (by simp [hnil])]
      exact ⟨h.goesOn, read, hread, hcount, hwhole.trans hspool.symm⟩
    · rw [Loopback.feed, if_pos ⟨rfl, hnil⟩]
      refine ⟨?_, read, hread, hcount, ?_⟩
      · exact List.forall_mem_append.mpr
          ⟨h.goesOn, List.forall_mem_singleton.mpr hnil⟩
      · have hdata : Source.data (source ++ [.data (spool'.newSince spool)]) =
            source.data ++ spool'.newSince spool := by
          simp [Source.data, Event.bytes]
        rw [hdata, ← List.append_assoc, hwhole]
        exact hspool.symm

/-- When a window gets nothing, the side has been counted and hashed as a whole. -/
theorem finish (h : Side source hasher count bytes) {room : Nat} (hroom : 1 ≤ room)
    (htaken : (source.fill room).taken = []) :
    count = bytes.length ∧
      ((source.reads room).foldl Sha256.Hasher.update hasher).digest = sha256 bytes := by
  obtain ⟨read, hread, hcount, hwhole⟩ := (h.fill room).exists_read
  have hdata : (source.fill room).rest.data = [] := by
    have hall := Source.data_fill room source
    rwa [htaken, Source.data_eq_nil_of_taken hroom h.goesOn htaken, List.nil_append] at hall
  rw [hdata, List.append_nil] at hwhole
  rw [htaken] at hcount
  exact ⟨hcount.trans (congrArg List.length hwhole), hwhole ▸ hread.digest_eq⟩

end Side

/-! ### Both sides -/

/-- What a comparison into an input tells when it ends: both sides as a whole, each by its length
and digest. -/
theorem told_runFrom (loop : Loopback) {layout : Layout} {style : LineStyle} {lft rgt : List UInt8}
    {fuel : Nat} {c : Comparer} {p : Progress} {left right : Source} {spool : Spool}
    {log : Array LogEntry} {hashing hashing' : Hashing} {result : RunResult Spool} {stats : Stats}
    (hc : Comparer.Fits layout style c)
    (hleft : Side left hashing.left p.stats.leftLength (whole loop.left spool lft))
    (hright : Side right hashing.right p.stats.rightLength (whole loop.right spool rgt))
    (hrun : loop.runFrom fuel c p left right spool log hashing = some (result, hashing'))
    (hstats : result.outcome = .ok stats) :
    (stats.leftLength = (whole loop.left result.output lft).length ∧
        hashing'.left.digest = sha256 (whole loop.left result.output lft)) ∧
      stats.rightLength = (whole loop.right result.output rgt).length ∧
        hashing'.right.digest = sha256 (whole loop.right result.output rgt) := by
  induction fuel generalizing c p left right spool log hashing with
  | zero => cases hrun
  | succ fuel ih =>
    have hlroom : 1 ≤ c.left.length := hc.length_left ▸ hc.valid.1
    have hrroom : 1 ≤ c.right.length := hc.length_right ▸ hc.valid.1
    rw [runFrom] at hrun
    split at hrun
    · next ended hturn =>
      -- both windows got nothing, so this is the end
      cases hrun
      obtain ⟨hstep, rfl, hspool⟩ := Comparer.step_of_turn_ended_ok hturn hstats
      obtain ⟨hltaken, hrtaken⟩ := Comparer.taken_of_step_eq_finished hstep
      rw [hspool, c.hashStep_eq right (Comparer.fault_of_step_eq_finished hstep)]
      exact ⟨hleft.finish hlroom hltaken, hright.finish hrroom hrtaken⟩
    · next next p' left' right' spool' log' hturn =>
      have hnext : Comparer.Fits layout style next :=
        hc.of_sameShape (Comparer.sameShape_of_turn_goesOn hturn)
      obtain ⟨block, compared, hstep, rfl, hsettle⟩ := Comparer.exists_step_of_turn hturn
      have hspool := Comparer.flushed_of_settle hsettle
      obtain ⟨hlblock, hrblock⟩ := Comparer.taken_of_step_eq_compared hstep
      obtain ⟨rfl, rfl⟩ := Comparer.rest_of_step_eq_compared hstep
      have hleft' := hleft.fill c.left.length
      have hright' := hright.fill c.right.length
      rw [hlblock] at hleft'
      rw [hrblock] at hright'
      rw [c.hashStep_eq right (Comparer.fault_of_step_eq_compared hstep).1] at hrun
      exact ih hnext (hleft'.feed loop.left hspool) (hright'.feed loop.right hspool) hrun

end Loopback

/-! ### What is told -/

/-- The left side is told to be some bytes: it is told their length and their digest. -/
def FileStats.LeftIs (told : FileStats) (bytes : List UInt8) : Prop :=
  told.stats.leftLength = bytes.length ∧ told.leftDigest = sha256 bytes

/-- The right side is told to be some bytes. -/
def FileStats.RightIs (told : FileStats) (bytes : List UInt8) : Prop :=
  told.stats.rightLength = bytes.length ∧ told.rightDigest = sha256 bytes

/-- A place is that of an output. -/
def FileTree.IsOutput (tree : FileTree) (output : Option String) (location : Location) : Prop :=
  ∃ path, output = some path ∧ tree.place path = .ok location

/-- A report goes to a file exactly if this is the output. -/
theorem FileTree.target_eq_file_iff {before after : FileTree} {output : Option String}
    {target : Target} (h : before.openOutput output = .ok (target, after)) {location : Location} :
    target = .file location ↔ before.IsOutput output location := by
  rcases openOutput_eq_ok h with ⟨rfl, rfl, -⟩ | ⟨path, place, rfl, hplace, rfl, -⟩
  · exact iff_of_false nofun fun ⟨_, hpath, _⟩ => nomatch hpath
  · constructor
    · intro htarget
      cases htarget
      exact ⟨path, rfl, hplace⟩
    · rintro ⟨path', hpath, hplace'⟩
      cases hpath
      rw [hplace] at hplace'
      exact congrArg Target.file (Except.ok.inj hplace')

namespace Preparation

variable {layout : Layout} {style : LineStyle} {lft rgt : List UInt8}

/-- A comparison into an input that ends well: what is told of both sides, and what is delivered. -/
theorem exists_told_of_runLooped (prep : Preparation)
    (hc : Comparer.Fits layout style prep.comparer) (hleft : prep.left.node = .file lft)
    (hright : prep.right.node = .file rgt) {told : FileStats}
    (h : prep.runLooped.outcome = .ok told) :
    ∃ (spool : Spool) (log : Array LogEntry),
      prep.runLooped = prep.target.deliver prep.tree (.ok told) spool.flush.flushed log ∧
        told.LeftIs (Loopback.whole prep.loopback.left spool lft) ∧
        told.RightIs (Loopback.whole prep.loopback.right spool rgt) := by
  rw [runLooped, hleft, hright] at h ⊢
  cases hloop : prep.loopback.run prep.comparer (Node.file lft).source (Node.file rgt).source with
  | none =>
    rw [hloop] at h
    cases h
  | some ended =>
    obtain ⟨result, hashing⟩ := ended
    rw [hloop] at h
    have hfinish : (prep.finish result hashing).outcome = .ok told := h
    rw [finish, Target.outcome_deliver] at hfinish
    cases hresult : result.outcome with
    | error fault =>
      rw [hresult] at hfinish
      cases hfinish
    | ok stats =>
      rw [hresult] at hfinish
      obtain rfl : ⟨stats, hashing.left.digest, hashing.right.digest⟩ = told :=
        Except.ok.inj hfinish
      obtain ⟨hl, hr⟩ := prep.loopback.told_runFrom hc (Loopback.Side.start prep.loopback.left lft)
        (Loopback.Side.start prep.loopback.right rgt) hloop hresult
      refine ⟨result.output, result.log, ?_, hl, hr⟩
      show prep.finish result hashing = _
      rw [finish, hresult]

/-- The same of any comparison. -/
theorem exists_told_of_run (prep : Preparation) (hc : Comparer.Fits layout style prep.comparer)
    (hwidth : style.offsetWidth ≤ Hex.maxWidth) (hleft : prep.left.node = .file lft)
    (hright : prep.right.node = .file rgt) {told : FileStats}
    (h : prep.run.outcome = .ok told) :
    ∃ (spool : Spool) (log : Array LogEntry),
      prep.run = prep.target.deliver prep.tree (.ok told) spool.flush.flushed log ∧
        told.LeftIs (Loopback.whole prep.loopback.left spool lft) ∧
        told.RightIs (Loopback.whole prep.loopback.right spool rgt) := by
  rw [run] at h ⊢
  split at h
  · next hany =>
    rw [if_pos hany]
    exact prep.exists_told_of_runLooped hc hleft hright h
  · next hany =>
    rw [if_neg hany]
    obtain ⟨hlapart, hrapart⟩ : prep.loopback.left = false ∧ prep.loopback.right = false := by
      simpa [Loopback.any] using hany
    obtain ⟨log, hrun⟩ := prep.exists_runApart_eq hc hwidth hleft hright
    rw [hrun, Target.outcome_deliver] at h
    obtain rfl : FileStats.mk _ _ _ = told := Except.ok.inj h
    refine ⟨⟨(utf8 (reportText layout style lft rgt)).toArray, #[]⟩, log, ?_, ?_, ?_⟩
    · rw [hrun, Spool.flush, Spool.written, Array.append_empty]
    · rw [hlapart]
      exact ⟨rfl, rfl⟩
    · rw [hrapart]
      exact ⟨rfl, rfl⟩

end Preparation

section

variable {tree : FileTree} {layout : Layout} {left right : String} {output : Option String}
  {leftAt rightAt : Location} {lft rgt : List UInt8}

/-- **What a comparison tells of its inputs.**  Let two paths lead to files, let the output be
whatever it may, and let the comparison end well.  An input that is not the output is told by the
length and the digest of the content that it had at the beginning.  Where the output is a file, it
holds a report in the end, and an input that is this file is told by the length and the digest of
some front of that report. -/
theorem diffFiles_tells_inputs (hleft : tree.find left = .ok (leftAt, .file lft))
    (hright : tree.find right = .ok (rightAt, .file rgt)) {told : FileStats}
    (h : (diffFiles tree layout left right output).outcome = .ok told) :
    (¬tree.IsOutput output leftAt → told.LeftIs lft) ∧
      (¬tree.IsOutput output rightAt → told.RightIs rgt) ∧
      ∀ location, tree.IsOutput output location →
        ∃ report front, front <+: report ∧
          (diffFiles tree layout left right output).tree.content? location = some report ∧
          (location = leftAt → told.LeftIs front) ∧ (location = rightAt → told.RightIs front) := by
  rcases diffFiles_cases tree layout left right output with ⟨e, hrun⟩ | ⟨prep, hmake, hrun⟩
  · rw [hrun] at h
    cases h
  · obtain ⟨hcomparer, hfind, hfind', houtput⟩ := Preparation.exists_of_make hmake
    obtain ⟨hlocation, hnode⟩ : prep.left.location = leftAt ∧ prep.left.node = .file lft :=
      Prod.mk.inj (Except.ok.inj (hfind.symm.trans hleft))
    obtain ⟨hlocation', hnode'⟩ : prep.right.location = rightAt ∧ prep.right.node = .file rgt :=
      Prod.mk.inj (Except.ok.inj (hfind'.symm.trans hright))
    have hfits := Comparer.fits_of_ofStyle? hcomparer
    rw [hrun] at h ⊢
    obtain ⟨spool, log, hdeliver, htold, htold'⟩ :=
      prep.exists_told_of_run hfits (LineStyle.offsetWidth_ofLayout_le hfits.valid) hnode hnode' h
    have hloop : prep.loopback.left = true ↔ tree.IsOutput output leftAt := by
      rw [← FileTree.target_eq_file_iff houtput, ← hlocation]
      exact decide_eq_true_iff
    have hloop' : prep.loopback.right = true ↔ tree.IsOutput output rightAt := by
      rw [← FileTree.target_eq_file_iff houtput, ← hlocation']
      exact decide_eq_true_iff
    refine ⟨fun hapart => ?_, fun hapart => ?_, fun location hlooped => ?_⟩
    · rwa [Bool.eq_false_of_not_eq_true (hloop.not.mpr hapart)] at htold
    · rwa [Bool.eq_false_of_not_eq_true (hloop'.not.mpr hapart)] at htold'
    · have hne : location ≠ [] := by
        obtain ⟨path, -, hplace⟩ := hlooped
        exact FileTree.ne_nil_of_place hplace
      refine ⟨spool.flush.flushed.toList, spool.flushed.toList, ?_, ?_, ?_, ?_⟩
      · rw [Spool.flush, Spool.written, Array.toList_append]
        exact List.prefix_append _ _
      · rw [hdeliver, (FileTree.target_eq_file_iff houtput).mpr hlooped]
        exact FileTree.content?_put_self hne _
      · rintro rfl
        rwa [hloop.mpr hlooped] at htold
      · rintro rfl
        rwa [hloop'.mpr hlooped] at htold'

/-- The report goes to the left input, by another path: the right one is told as it was. -/
theorem diffFiles_tells_inputs_into_left :
    let tree : FileTree := { entries := [
      (["l".toList], .file [65, 65, 65]), (["r".toList], .file [66])] }
    ∃ told, (diffFiles tree ⟨4, 4, {}⟩ "l" "r" (some "./l")).outcome = .ok told ∧
      told.RightIs [66] := by
  intro tree
  have hleft : tree.find "l" = .ok (["l".toList], .file [65, 65, 65]) := by decide +kernel
  have hright : tree.find "r" = .ok (["r".toList], .file [66]) := by decide +kernel
  have hplace : tree.place "./l" = .ok ["l".toList] := by decide +kernel
  have hok : (diffFiles tree ⟨4, 4, {}⟩ "l" "r" (some "./l")).outcome.isOk = true := by
    decide +kernel
  have hapart : ¬tree.IsOutput (some "./l") ["r".toList] := by
    rintro ⟨path, hpath, hplace'⟩
    cases hpath
    rw [hplace] at hplace'
    exact absurd (Except.ok.inj hplace') (by decide)
  cases hrun : (diffFiles tree ⟨4, 4, {}⟩ "l" "r" (some "./l")).outcome with
  | error e =>
    rw [hrun] at hok
    cases hok
  | ok told => exact ⟨told, rfl, (diffFiles_tells_inputs hleft hright hrun).2.1 hapart⟩

/-- Three bytes are compared with one, and the report goes to the three: the comparison ends well,
and tells of an empty left input. -/
theorem diffFiles_over_input_tells_nothing :
    let tree : FileTree := { entries := [
      (["l".toList], .file [65, 65, 65]), (["r".toList], .file [66])] }
    tree.find "l" = .ok (["l".toList], .file [65, 65, 65]) ∧
      tree.find "r" = .ok (["r".toList], .file [66]) ∧
      ∃ told, (diffFiles tree ⟨4, 4, {}⟩ "l" "r" (some "l")).outcome = .ok told ∧
        told.LeftIs [] ∧ ¬told.LeftIs [65, 65, 65] := by
  intro tree
  have hempty : (diffFiles tree ⟨4, 4, {}⟩ "l" "r" (some "l")).outcome.map
      (fun told => (told.stats.leftLength, told.leftDigest)) = .ok (0, sha256 []) := by
    decide +kernel
  refine ⟨by decide +kernel, by decide +kernel, ?_⟩
  cases hrun : (diffFiles tree ⟨4, 4, {}⟩ "l" "r" (some "l")).outcome with
  | error e =>
    rw [hrun] at hempty
    cases hempty
  | ok told =>
    rw [hrun] at hempty
    obtain ⟨hlength, hdigest⟩ := Prod.mk.inj (Except.ok.inj hempty)
    refine ⟨told, rfl, ⟨hlength, hdigest⟩, fun hleft => ?_⟩
    rw [FileStats.LeftIs, hlength] at hleft
    exact absurd hleft.1 (by decide)

end

end HexDiff
