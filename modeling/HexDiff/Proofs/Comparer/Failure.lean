import HexDiff.Proofs.Comparer.Report

/-!
# Runs that end in a failing stream

A stream may fail anywhere: in the middle of a block, at the end of one, or long after the other
stream has ended.  `firstFailure` tells where a comparison notices it: in the first block that a
failing stream does not fill, and in a block that neither fills it is the left stream that counts.

Up to there a comparer meets the blocks of what the streams deliver
(`Comparer.course_of_failure`), and these are the blocks of the contents cut off at that place
(`map_ofContents_take`).  So the output is that of a run on the contents cut off
(`Comparer.run_stopped_eq`): the failing block leaves nothing in it, and the blocks before it all
do.  If they can be shown, the run then ends in the fault (`Comparer.run_of_failure`).
-/

namespace HexDiff

/-! ### Streams that stop -/

namespace Source

/-- A stream with what comes behind it: the end, or a fault and then anything. -/
def stopped (source : Source) (stop : Option Fault) (rest : Source) : Source :=
  match stop with
  | none => source
  | some fault => source ++ .failed fault :: rest

/-- A stream that goes on up to where it stops delivers its data up to there. -/
theorem delivers_stopped {source : Source} (h : ∀ event ∈ source, event.GoesOn)
    {stop : Option Fault} (hstop : ∀ fault ∈ stop, fault.kind ≠ .interrupted) (rest : Source) :
    (source.stopped stop rest).Delivers source.data stop := by
  cases stop with
  | none => exact delivers_data h
  | some fault =>
    have hfault : fault.kind ≠ .interrupted := hstop fault rfl
    have htail : Delivers (.failed fault :: rest) [] (some fault) := .stopped hfault
    have hall := delivers_append h htail
    rwa [List.append_nil] at hall

end Source

/-! ### The place of the failure -/

/-- The block in which a comparison fails, and the fault: `lft` and `rgt` are what the streams
deliver, and each of them may have a fault behind it. -/
def firstFailure (lineLength : Nat) (lft : List UInt8) (leftStop : Option Fault)
    (rgt : List UInt8) (rightStop : Option Fault) : Option (Nat × Fault) :=
  let leftBlock := lft.length / lineLength
  let rightBlock := rgt.length / lineLength
  match leftStop, rightStop with
  | none, none => none
  | some fault, none => some (leftBlock, fault)
  | none, some fault => some (rightBlock, fault)
  | some leftFault, some rightFault =>
    if leftBlock ≤ rightBlock then some (leftBlock, leftFault) else some (rightBlock, rightFault)

variable {n k : Nat} {lft rgt : List UInt8} {leftStop rightStop : Option Fault} {fault : Fault}

/-- If a stream fails, the comparison does. -/
theorem exists_firstFailure_eq (n : Nat) (lft rgt : List UInt8)
    (h : leftStop.isSome ∨ rightStop.isSome) :
    ∃ k fault, firstFailure n lft leftStop rgt rightStop = some (k, fault) := by
  unfold firstFailure
  cases leftStop with
  | none =>
    cases rightStop with
    | none => simp at h
    | some rightFault => exact ⟨_, _, rfl⟩
  | some leftFault =>
    cases rightStop with
    | none => exact ⟨_, _, rfl⟩
    | some rightFault =>
      dsimp only
      split
      · exact ⟨_, _, rfl⟩
      · exact ⟨_, _, rfl⟩

/-- The stream that fails first is one that the other does not forestall. -/
theorem firstFailure_eq_some_iff : firstFailure n lft leftStop rgt rightStop = some (k, fault) ↔
    (leftStop = some fault ∧ lft.length / n = k ∧ (rightStop = none ∨ k ≤ rgt.length / n)) ∨
      (rightStop = some fault ∧ rgt.length / n = k ∧ (leftStop = none ∨ k < lft.length / n)) := by
  unfold firstFailure
  cases leftStop with
  | none => cases rightStop <;> simp [and_comm]
  | some leftFault =>
    cases rightStop with
    | none => simp [and_comm]
    | some rightFault => grind

/-- Less than a block, or a block and what is behind it. -/
theorem div_eq_zero_or_succ (hn : 1 ≤ n) (m : Nat) :
    (m < n ∧ m / n = 0) ∨ (n ≤ m ∧ 0 < m / n ∧ m / n = (m - n) / n + 1) := by
  rcases Nat.lt_or_ge m n with hlt | hle
  · exact Or.inl ⟨hlt, Nat.div_eq_of_lt hlt⟩
  · exact Or.inr ⟨hle, Nat.div_pos hle hn, Nat.div_eq_sub_div hn hle⟩

/-- A failure in the first block: the left stream does not fill it, or only the right one. -/
theorem of_firstFailure_eq_zero (hn : 1 ≤ n)
    (h : firstFailure n lft leftStop rgt rightStop = some (0, fault)) :
    (lft.length < n ∧ leftStop = some fault) ∨
      ((n ≤ lft.length ∨ leftStop = none) ∧ rgt.length < n ∧ rightStop = some fault) := by
  have hlft := div_eq_zero_or_succ hn lft.length
  have hrgt := div_eq_zero_or_succ hn rgt.length
  rcases firstFailure_eq_some_iff.mp h with ⟨hstop, hblock, -⟩ | ⟨hstop, hblock, hother⟩
  · exact Or.inl ⟨by omega, hstop⟩
  · exact Or.inr ⟨hother.symm.imp_left fun _ => by omega, by omega, hstop⟩

/-- A failure in a later block: both streams have got a whole block or do not fail, one of them has
got it for certain, and the failure is one block earlier in what is behind it. -/
theorem of_firstFailure_eq_succ (hn : 1 ≤ n)
    (h : firstFailure n lft leftStop rgt rightStop = some (k + 1, fault)) :
    (n ≤ lft.length ∨ leftStop = none) ∧ (n ≤ rgt.length ∨ rightStop = none) ∧
      (n ≤ lft.length ∨ n ≤ rgt.length) ∧
      firstFailure n (lft.drop n) leftStop (rgt.drop n) rightStop = some (k, fault) := by
  have hlft := div_eq_zero_or_succ hn lft.length
  have hrgt := div_eq_zero_or_succ hn rgt.length
  rw [firstFailure_eq_some_iff, List.length_drop, List.length_drop]
  rcases firstFailure_eq_some_iff.mp h with ⟨hstop, hblock, hother⟩ | ⟨hstop, hblock, hother⟩
  · have hfull : n ≤ lft.length := by omega
    refine ⟨Or.inl hfull, hother.symm.imp_left fun _ => by omega, Or.inl hfull, Or.inl ?_⟩
    exact ⟨hstop, by omega, hother.imp_right fun _ => by omega⟩
  · have hfull : n ≤ rgt.length := by omega
    refine ⟨hother.symm.imp_left fun _ => by omega, Or.inl hfull, Or.inr hfull, Or.inr ?_⟩
    exact ⟨hstop, by omega, hother.imp_right fun _ => by omega⟩

/-! ### The blocks before the failure -/

/-- A content that is cut off behind block `k` has the same windows before that. -/
theorem window_take (n : Nat) (bytes : List UInt8) {i k : Nat} (h : i < k) :
    window n (bytes.take (k * n)) i = window n bytes i := by
  have hle : n ≤ k * n - i * n := by
    have hmul : (i + 1) * n ≤ k * n := Nat.mul_le_mul_right n h
    rw [Nat.succ_mul] at hmul
    omega
  rw [window, window, List.drop_take, List.take_take, Nat.min_eq_left hle]

/-- So it has the same blocks before that. -/
theorem map_ofContents_take (n k : Nat) (lft rgt : List UInt8) :
    (List.range k).map (Block.ofContents n (lft.take (k * n)) (rgt.take (k * n))) =
      (List.range k).map (Block.ofContents n lft rgt) := by
  refine List.map_congr_left fun i hi => ?_
  have hlt : i < k := List.mem_range.mp hi
  simp only [Block.ofContents, window_take n _ hlt]

/-- There are `k` blocks of contents cut off where a stream fails in block `k`. -/
theorem blockCount_take (hn : 1 ≤ n)
    (h : firstFailure n lft leftStop rgt rightStop = some (k, fault)) :
    blockCount n (lft.take (k * n)) (rgt.take (k * n)) = k := by
  have hmax : max (lft.take (k * n)).length (rgt.take (k * n)).length = k * n := by
    rw [List.length_take, List.length_take]
    rcases firstFailure_eq_some_iff.mp h with ⟨-, rfl, -⟩ | ⟨-, rfl, -⟩
    · have hle := Nat.div_mul_le_self lft.length n
      omega
    · have hle := Nat.div_mul_le_self rgt.length n
      omega
  rw [blockCount, hmax]
  exact Nat.div_eq_of_lt_le (by omega) (by rw [Nat.succ_mul]; omega)

namespace Comparer

/-- A step in which a stream fails, the left one or only the right one. -/
theorem exists_step_eq_failed (c : Comparer) {left right : Source} {fault : Fault}
    (h : (left.fill c.left.length).fault = some fault ∨
      ((left.fill c.left.length).fault = none ∧ (right.fill c.right.length).fault = some fault)) :
    ∃ next, c.step left right = .failed fault next := by
  rw [step_eq_react, react]
  rcases h with hleft | ⟨hleft, hright⟩
  · rw [hleft]
    exact ⟨_, rfl⟩
  · rw [hleft, hright]
    exact ⟨_, rfl⟩

variable {layout : Layout} {style : LineStyle} {c : Comparer}

/-- What a comparer meets on streams that fail: the blocks before the failure, and then the
fault. -/
theorem course_of_failure {left right : Source} (hc : Fits layout style c)
    (hleft : left.Delivers lft leftStop) (hright : right.Delivers rgt rightStop)
    (h : firstFailure layout.lineLength lft leftStop rgt rightStop = some (k, fault)) :
    (c.course left right).blocks =
        (List.range k).map (Block.ofContents layout.lineLength lft rgt) ∧
      (c.course left right).fault = some fault := by
  have hn : 1 ≤ layout.lineLength := hc.valid.1
  induction k generalizing c left right lft rgt with
  | zero =>
    have hlfault := (Source.fill_of_delivers hleft layout.lineLength).2.1
    have hrfault := (Source.fill_of_delivers hright layout.lineLength).2.1
    have hstep : ∃ next, c.step left right = .failed fault next := by
      refine c.exists_step_eq_failed ?_
      rw [hc.length_left, hc.length_right, hlfault, hrfault]
      rcases of_firstFailure_eq_zero hn h with ⟨hlt, rfl⟩ | ⟨hroom, hlt, rfl⟩
      · exact Or.inl (if_pos hlt)
      · refine Or.inr ⟨?_, if_pos hlt⟩
        rcases hroom with hle | rfl
        · exact if_neg (Nat.not_lt.mpr hle)
        · exact ite_self none
    obtain ⟨next, hstep⟩ := hstep
    rw [course_eq, hstep]
    exact ⟨rfl, rfl⟩
  | succ k ih =>
    obtain ⟨hlroom, hrroom, hfull, hrest⟩ := of_firstFailure_eq_succ hn h
    have hne : ¬(lft = [] ∧ rgt = []) := by
      rintro ⟨rfl, rfl⟩
      rw [List.length_nil] at hfull
      omega
    obtain ⟨next, l, r, hnext, hl, hr, hcourse⟩ :=
      exists_course_eq hc hleft hright hlroom hrroom hne
    obtain ⟨hblocks, hfault⟩ := ih hnext hl hr hrest
    rw [hcourse, map_ofContents_succ, Course.blocks, Course.fault, hblocks, hfault]
    exact ⟨rfl, rfl⟩

/-- Two runs that meet the same blocks, the one of them and then a fault, the other nothing more:
they write the same, and if the one without the fault comes to an end, the other ends in it. -/
theorem run_of_blocks_eq {σ : Type} [Outlet σ] {left right left' right' : Source} {fault : Fault}
    (hblocks : (c.course left right).blocks = (c.course left' right').blocks)
    (hfault : (c.course left right).fault = some fault)
    (hnone : (c.course left' right').fault = none) (output : σ) :
    (c.run left right output).output = (c.run left' right' output).output ∧
      (c.run left right output).outcome =
        (c.run left' right' output).outcome.bind fun _ => .error (.fault fault) := by
  have hending : c.ending {} (c.course left' right').blocks (some fault) =
      (c.ending {} (c.course left' right').blocks none).bind fun _ => .error (.fault fault) := by
    unfold ending
    split
    · rfl
    · rfl
  rw [output_run, output_run, outcome_run, outcome_run, hblocks, hfault, hnone, hending]
  refine ⟨rfl, ?_⟩
  cases (Outlet.writeAll output (c.pieces {} (c.course left' right').blocks)).1 with
  | error refused => rfl
  | ok _ => rfl

/-- A run on streams one of which fails writes what a run writes on the contents cut off before the
block of the failure, and where that run comes to an end, it ends in the fault. -/
theorem run_stopped_eq (hc : Fits layout style c) {left right : Source}
    (hleft : ∀ event ∈ left, event.GoesOn) (hright : ∀ event ∈ right, event.GoesOn)
    (hleftStop : ∀ f ∈ leftStop, f.kind ≠ .interrupted)
    (hrightStop : ∀ f ∈ rightStop, f.kind ≠ .interrupted) (leftRest rightRest : Source)
    (h : firstFailure layout.lineLength left.data leftStop right.data rightStop = some (k, fault))
    {σ : Type} [Outlet σ] (output : σ) :
    let failed := c.run (left.stopped leftStop leftRest) (right.stopped rightStop rightRest) output
    let whole := c.run (.ofBytes (left.data.take (k * layout.lineLength)))
      (.ofBytes (right.data.take (k * layout.lineLength))) output
    failed.output = whole.output ∧
      failed.outcome = whole.outcome.bind fun _ => .error (.fault fault) := by
  obtain ⟨hblocks, hfault⟩ := course_of_failure hc
    (Source.delivers_stopped hleft hleftStop leftRest)
    (Source.delivers_stopped hright hrightStop rightRest) h
  obtain ⟨hblocks', hnone⟩ := blocks_course hc
    (Source.delivers_ofBytes (left.data.take (k * layout.lineLength)))
    (Source.delivers_ofBytes (right.data.take (k * layout.lineLength)))
  rw [blockCount_take hc.valid.1 h, map_ofContents_take, ← hblocks] at hblocks'
  exact run_of_blocks_eq hblocks'.symm hfault hnone output

/-- **A failing stream.**  Take two streams that go on up to where they stop, in whatever pieces and
with whatever interruptions, and let one of them or both stop with a fault.  A comparer, whatever it
has been used for before, writes what it writes for the contents cut off before the first block that
a failing stream does not fill, and where it comes to an end with these, it ends in the fault of that
stream.  If there is a column for the offsets of the style, and the output refuses nothing, then it
does end in this fault, and what is written is the report on the contents cut off, and nothing
else. -/
theorem run_of_failure (hc : Reachable layout style c) {left right : Source}
    (hleft : ∀ event ∈ left, event.GoesOn) (hright : ∀ event ∈ right, event.GoesOn)
    (hleftStop : ∀ f ∈ leftStop, f.kind ≠ .interrupted)
    (hrightStop : ∀ f ∈ rightStop, f.kind ≠ .interrupted)
    (hstop : leftStop.isSome ∨ rightStop.isSome) (leftRest rightRest : Source)
    {σ : Type} [Outlet σ] (view : Outlet.Lossless σ) {output : σ} (hopen : view.Open output) :
    ∃ k fault,
      firstFailure layout.lineLength left.data leftStop right.data rightStop = some (k, fault) ∧
      let lft := left.data.take (k * layout.lineLength)
      let rgt := right.data.take (k * layout.lineLength)
      let failed :=
        c.run (left.stopped leftStop leftRest) (right.stopped rightStop rightRest) output
      let whole := c.run (.ofBytes lft) (.ofBytes rgt) output
      failed.output = whole.output ∧
        (failed.outcome = whole.outcome.bind fun _ => .error (.fault fault)) ∧
        (style.offsetWidth ≤ Hex.maxWidth →
          failed.outcome = .error (.fault fault) ∧ (∃ stats, whole.outcome = .ok stats) ∧
            view.arrived failed.output =
              view.arrived output ++ utf8 (reportText layout style lft rgt)) := by
  obtain ⟨k, fault, hfirst⟩ :=
    exists_firstFailure_eq layout.lineLength left.data right.data hstop
  refine ⟨k, fault, hfirst, ?_⟩
  intro lft rgt failed whole
  obtain ⟨houtput, houtcome⟩ := run_stopped_eq hc.fits hleft hright hleftStop hrightStop
    leftRest rightRest hfirst output
  refine ⟨houtput, houtcome, fun hwidth => ?_⟩
  obtain ⟨hwhole, harrived⟩ := run_of_lossless hc.fits (Source.delivers_ofBytes lft)
    (Source.delivers_ofBytes rgt) (Or.inl hwidth) view hopen
  refine ⟨?_, ⟨_, hwhole⟩, (congrArg view.arrived houtput).trans harrived⟩
  simp only [failed]
  rw [houtcome, hwhole]
  rfl

/-- Nine bytes and then a fault, against six bytes and then another one, four to a line: the right
stream does not fill the second block, and what is written is the report on the first one. -/
theorem run_of_failure_second_block :
    ∃ c, ofStyle? ⟨4, 4, {}⟩ ⟨4, 4, []⟩ = .ok c ∧
      let result := c.run
        [.data [65, 65, 65], .failed ⟨.interrupted, ""⟩, .data [65, 65, 65, 65, 65, 65],
          .failed ⟨.brokenPipe, "left"⟩]
        [.data [65, 65, 65, 88, 65], .data [65], .failed ⟨.timedOut, "right"⟩, .data [65]] ""
      result.outcome = .error (.fault ⟨.timedOut, "right"⟩) ∧
        utf8 result.output.toList =
          utf8 "\n0000:   41 41 41(41)\n0000:   41 41 41(58)\n".toList := by
  have hbuilt : ∃ c, ofStyle? ⟨4, 4, {}⟩ ⟨4, 4, []⟩ = .ok c := exists_ofStyle?_iff.mpr (by decide)
  obtain ⟨c, hc⟩ := hbuilt
  have hleft : ∀ event ∈ ([.data [65, 65, 65], .failed ⟨.interrupted, ""⟩,
      .data [65, 65, 65, 65, 65, 65]] : Source), event.GoesOn := by simp [Event.GoesOn]
  have hright : ∀ event ∈ ([.data [65, 65, 65, 88, 65], .data [65]] : Source), event.GoesOn := by
    simp [Event.GoesOn]
  have hleftStop : ∀ f ∈ some (⟨.brokenPipe, "left"⟩ : Fault), f.kind ≠ .interrupted := by simp
  have hrightStop : ∀ f ∈ some (⟨.timedOut, "right"⟩ : Fault), f.kind ≠ .interrupted := by simp
  obtain ⟨k, fault, hfirst, -, -, hwidth⟩ :=
    run_of_failure (.built hc) hleft hright hleftStop hrightStop (Or.inl rfl) [] [.data [65]]
      Outlet.losslessText trivial
  obtain ⟨rfl, rfl⟩ : k = 1 ∧ fault = ⟨.timedOut, "right"⟩ := by
    simpa [firstFailure, Source.data, Event.bytes, eq_comm] using hfirst
  obtain ⟨houtcome, -, harrived⟩ := hwidth (by decide)
  refine ⟨c, hc, houtcome, harrived.trans ?_⟩
  decide +kernel

/-- With offsets of one digit more than a column has, a run does not come to the fault of a stream:
it breaks off at the block before, which cannot be shown. -/
theorem run_of_failure_overwide :
    ∃ c, ofStyle? ⟨1, 1, {}⟩ ⟨1, 65536, []⟩ = .ok c ∧
      firstFailure 1 [0] (some ⟨.brokenPipe, "left"⟩) [1] none =
        some (1, ⟨.brokenPipe, "left"⟩) ∧
      (c.run [.data [0], .failed ⟨.brokenPipe, "left"⟩] [.data [1]] "").outcome =
        .error (.overwide ⟨65536⟩) := by
  have hbuilt : ∃ c, ofStyle? ⟨1, 1, {}⟩ ⟨1, 65536, []⟩ = .ok c :=
    exists_ofStyle?_iff.mpr (by decide)
  obtain ⟨c, hc⟩ := hbuilt
  have hfits := fits_of_ofStyle? hc
  have hleft : ∀ event ∈ ([.data [0]] : Source), event.GoesOn := by simp [Event.GoesOn]
  have hright : ∀ event ∈ ([.data [1]] : Source), event.GoesOn := by simp [Event.GoesOn]
  have hstop : ∀ f ∈ some (⟨.brokenPipe, "left"⟩ : Fault), f.kind ≠ .interrupted := by simp
  have hnone : ∀ f ∈ (none : Option Fault), f.kind ≠ .interrupted := by simp
  have hfirst : firstFailure 1 [0] (some ⟨.brokenPipe, "left"⟩) [1] none =
      some (1, ⟨.brokenPipe, "left"⟩) := rfl
  obtain ⟨-, houtcome⟩ := run_stopped_eq hfits hleft hright hstop hnone [] [] hfirst ""
  obtain ⟨hwhole, -⟩ := run_of_not_canShow hfits (Source.delivers_ofBytes [0])
    (Source.delivers_ofBytes [1]) (by decide) Outlet.losslessText
    (trivial : Outlet.losslessText.Open "")
  refine ⟨c, hc, hfirst, houtcome.trans ?_⟩
  -- the contents cut off are one byte against another
  change (c.run (.ofBytes [0]) (.ofBytes [1]) "").outcome.bind _ = _
  rw [hwhole]
  rfl

end Comparer
end HexDiff
