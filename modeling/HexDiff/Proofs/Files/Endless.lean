import HexDiff.Proofs.Columns
import HexDiff.Proofs.Files.Feedback

/-!
# Comparisons that do not end

A comparison into an input is followed for a limited number of blocks only, and if it has not ended
by then, it is said not to end.  This is justified: a comparison that ends after any number of blocks
has ended by then (`Loopback.run_eq_some_iff`).  So the error that stands for it is reported exactly
for the comparisons that go on for ever (`Preparation.outcome_run_eq_endless_iff`).

Two numbers are watched.  One is what the inputs have left that is not read back from the report
(`Loopback.own`): as long as there is any of it, each block takes some.  The other is what the
report has that was not read back, in the file or in the spool (`Loopback.unread`): once there is
nothing else to read, each block differs, and adds more to the report than it reads of it.  A
comparison ends only if all that is unread is in the spool, which has a capacity.  So when more than
this is unread, it does not end any more (`Loopback.Midway.runFrom_eq_none`).
-/

namespace HexDiff

/-! ### What windows take -/

namespace Source

/-- The number of data bytes. -/
theorem length_data (source : Source) : source.data.length = source.byteCount := by
  induction source with
  | nil => rfl
  | cons event rest ih =>
    rw [data, List.flatMap_cons, List.length_append]
    cases event with
    | data bytes => exact congrArg (bytes.length + ·) ih
    | ended => exact (Nat.zero_add _).trans ih
    | failed fault => exact (Nat.zero_add _).trans ih

variable {source : Source} (h : ∀ event ∈ source, event.GoesOn) (room : Nat)
include h

/-- From a stream that goes on, a window takes as much as it has room for. -/
theorem length_taken_of_goesOn : (fill room source).taken.length = min room source.byteCount := by
  rw [(fill_of_delivers (delivers_data h) room).1, List.length_take, length_data]

/-- It does not meet a fault. -/
theorem fault_of_goesOn : (fill room source).fault = none := by
  rw [(fill_of_delivers (delivers_data h) room).2.1, ite_self]

end Source

/-- A directory cannot be read. -/
theorem Node.fault_fill_directory {room : Nat} (h : 1 ≤ room) :
    (Node.directory.source.fill room).fault = some .isADirectory := by
  obtain ⟨room, rfl⟩ := Nat.exists_eq_add_of_le' h
  rfl

/-! ### What blocks write -/

/-- A text has no more characters than bytes. -/
theorem length_le_length_utf8 (cs : List Char) : cs.length ≤ (utf8 cs).length := by
  induction cs with
  | nil => exact Nat.zero_le _
  | cons c cs ih =>
    have hc : 0 < (String.utf8EncodeChar c).length :=
      List.length_pos_iff.mpr String.utf8EncodeChar_ne_nil
    rw [utf8, List.flatMap_cons, List.length_append, List.length_cons]
    exact (Nat.add_comm _ _).trans_le (Nat.add_le_add hc ih)

/-- A line has more characters than there are flags. -/
theorem LineStyle.length_flags_lt_length_line (style : LineStyle) (offset : Nat)
    (window : List UInt8) (flags : List Bool) :
    flags.length < (style.line offset window flags).length := by
  have hcolumns := length_columns length_missingByte 0 false flags (window.map some)
  obtain ⟨tail, htail⟩ : ∃ tail, style.line offset window flags =
      Hex.padded style.offsetWidth offset ++
        ':' :: (columns missingByte 0 false flags (window.map some) ++ tail) :=
    ⟨style.overlayText window, by rw [line, row, List.append_assoc, List.cons_append]⟩
  rw [htail, List.length_append, List.length_cons, List.length_append]
  rw [columnsWidth, columnsWidth] at hcolumns
  omega

namespace Comparer

variable {layout : Layout} {style : LineStyle} {c next : Comparer}
  {left right left' right' : Source} {block : Block}

/-- The report on a block is longer than its windows together. -/
theorem length_lt_blockReport (hc : Fits layout style c)
    (h : c.step left right = .compared block next left' right') (p : Progress) :
    block.left.length + block.right.length < (utf8 (c.blockReport p block)).length := by
  have hleft : block.left.length ≤ block.mask.flags.length := by
    rw [mask_of_step_eq_compared h, ← Mask.capacity, Mask.capacity_mark, hc.capacity_mask,
      ← hc.length_left, ← (taken_of_step_eq_compared h).1]
    exact left.length_taken_fill_le _
  have hright : block.right.length ≤ block.mask.flags.length := by
    rw [mask_of_step_eq_compared h, ← Mask.capacity, Mask.capacity_mark, hc.capacity_mask,
      ← hc.length_right, ← (taken_of_step_eq_compared h).2]
    exact right.length_taken_fill_le _
  have hupper := c.style.length_flags_lt_length_line p.offset block.left block.mask.flags
  have hlower := c.style.length_flags_lt_length_line p.offset block.right block.mask.flags
  refine lt_of_lt_of_le ?_ (length_le_length_utf8 _)
  simp only [blockReport, Block.report, List.length_append, List.length_cons]
  omega

/-- A block differs if its windows do. -/
theorem differs_of_step (hc : Fits layout style c)
    (h : c.step left right = .compared block next left' right') (hne : block.left ≠ block.right) :
    block.mask.differs = true := by
  obtain ⟨hleft, hright⟩ := taken_of_step_eq_compared h
  have hle := left.length_taken_fill_le c.left.length
  have hle' := right.length_taken_fill_le c.right.length
  rw [hleft, hc.length_left, ← hc.capacity_mask] at hle
  rw [hright, hc.length_right, ← hc.capacity_mask] at hle'
  rw [mask_of_step_eq_compared h, Mask.mark_eq]
  exact (Mask.differs_flagsOf_iff hle hle').mpr hne

end Comparer

/-! ### What spools hold back -/

namespace Spool

variable {spool : Spool} {piece : List UInt8}

/-- What is written goes to the file or is held back. -/
theorem length_newSince_write (spool : Spool) (piece : List UInt8) :
    (spool.write piece).pending.size + ((spool.write piece).newSince spool).length =
      spool.pending.size + piece.length := by
  have hall := congrArg List.length (spool.toList_written_write piece)
  have hflushed := congrArg List.length (spool.flushed_write piece)
  simp only [written, Array.toList_append, List.length_append, Array.length_toList] at hall hflushed
  omega

/-- A piece that is held back as well. -/
theorem size_pending_hold (spool : Spool) (piece : List UInt8) :
    (spool.hold piece).pending.size = spool.pending.size + piece.length := by
  rw [hold, ← Array.length_toList, Array.toList_appendList, List.length_append,
    Array.length_toList]

/-- No more than the capacity is held back. -/
theorem size_pending_write_le (h : spool.pending.size ≤ capacity) :
    (spool.write piece).pending.size ≤ capacity := by
  simp only [write]
  split
  · rw [size_pending_hold]
    omega
  · split
    · exact Nat.zero_le _
    · split
      · have hnone : spool.flush.pending.size = 0 := rfl
        rw [size_pending_hold, hnone]
        omega
      · rw [size_pending_hold]
        omega

end Spool

/-- If the windows of a block are not equally long, the block differs, and so more comes to the report
than was read for it. -/
theorem Comparer.grows_of_settle {layout : Layout} {style : LineStyle} {c compared next : Comparer}
    {left right left' right' : Source} {block : Block} {p : Progress} {spool spool' : Spool}
    {log log' : Array LogEntry} (hc : Fits layout style c)
    (hstep : c.step left right = .compared block compared left' right')
    (hsettle : compared.settle p block spool log = .ok (next, spool', log'))
    (hne : block.left.length ≠ block.right.length) :
    style.offsetWidth ≤ Hex.maxWidth ∧
      spool.pending.size + (block.left.length + block.right.length) <
        spool'.pending.size + (spool'.newSince spool).length := by
  have hshape := sameShape_of_step hstep
  have hdiffers := differs_of_step hc hstep fun heq => hne (congrArg List.length heq)
  rcases spool_of_settle hsettle with ⟨hsame, -⟩ | ⟨hwidth, rfl⟩
  · exact absurd hdiffers hsame
  · have hlonger := length_lt_blockReport hc hstep p
    rw [← blockReport_of_sameShape hshape] at hlonger
    have hall := spool.length_newSince_write (utf8 (compared.blockReport p block))
    exact ⟨(hc.of_sameShape hshape).style_eq ▸ hwidth, by omega⟩

/-! ### What is watched -/

namespace Loopback

/-- What the inputs have left that is not read back from the report. -/
def own (loop : Loopback) (left right : Source) : Nat :=
  (if loop.left then 0 else left.byteCount) + if loop.right then 0 else right.byteCount

/-- What the report has that was not read back: what is held back and what an input has left of
it. -/
def unread (loop : Loopback) (left right : Source) (spool : Spool) : Nat :=
  spool.pending.size +
    ((if loop.left then left.byteCount else 0) + if loop.right then right.byteCount else 0)

/-- A bound on the blocks that are still to come, the last one included, if the comparison ends. -/
def toCome (loop : Loopback) (left right : Source) (spool : Spool) : Nat :=
  loop.own left right +
    (if loop.own left right = 0 then Spool.capacity + 1 - loop.unread left right spool
      else Spool.capacity + 1) + 1

/-- At no time it is more than what there is to be read, the capacity of a spool, and two. -/
theorem toCome_le (loop : Loopback) (left right : Source) (spool : Spool) :
    loop.toCome left right spool ≤ left.byteCount + right.byteCount + Spool.capacity + 2 := by
  have hown : loop.own left right ≤ left.byteCount + right.byteCount := by
    unfold own
    split <;> split <;> omega
  unfold toCome
  split <;> omega

/-- What has come to the file is there to be read. -/
theorem byteCount_feed (looped : Bool) (news : List UInt8) (source : Source) :
    (feed looped news source).byteCount =
      source.byteCount + if looped then news.length else 0 := by
  rw [← Source.length_data, ← Source.length_data, feed]
  cases looped with
  | false => rw [if_neg (by simp)]; rfl
  | true =>
    by_cases hnil : news = []
    · rw [if_neg (by simp [hnil]), hnil]; rfl
    · rw [if_pos ⟨rfl, hnil⟩]
      simp [Source.data, Event.bytes]

/-- A stream goes on after something has come to the file. -/
theorem goesOn_feed (looped : Bool) (news : List UInt8) {source : Source}
    (h : ∀ event ∈ source, event.GoesOn) : ∀ event ∈ feed looped news source, event.GoesOn := by
  rw [feed]
  split
  · next hfed => exact List.forall_mem_append.mpr ⟨h, List.forall_mem_singleton.mpr hfed.2⟩
  · exact h

/-- A comparison in the middle, with two inputs that go on up to their ends. -/
structure Midway (layout : Layout) (style : LineStyle) (c : Comparer) (left right : Source)
    (spool : Spool) : Prop where
  fits : Comparer.Fits layout style c
  left : ∀ event ∈ left, event.GoesOn
  right : ∀ event ∈ right, event.GoesOn
  pending : spool.pending.size ≤ Spool.capacity

namespace Midway

variable {loop : Loopback} {layout : Layout} {style : LineStyle} {c next : Comparer}
  {p p' : Progress} {left right left' right' : Source} {spool spool' : Spool}
  {log log' : Array LogEntry} {hashing : Hashing}

/-- **One block.**  A comparison that goes on is in the middle again.  It has less left of the inputs'
own, or there was nothing of it, and now more is unread than before. -/
theorem next_of_turn (h : Midway layout style c left right spool)
    (hone : ¬(loop.left = true ∧ loop.right = true))
    (hturn : c.turn p left right spool log = .goesOn next p' left' right' spool' log') :
    let news := spool'.newSince spool
    let fedLeft := feed loop.left news left'
    let fedRight := feed loop.right news right'
    Midway layout style next fedLeft fedRight spool' ∧
      (loop.own fedLeft fedRight < loop.own left right ∨
        loop.own left right = 0 ∧ loop.own fedLeft fedRight = 0 ∧
          loop.unread left right spool < loop.unread fedLeft fedRight spool' ∧
          style.offsetWidth ≤ Hex.maxWidth) := by
  intro news fedLeft fedRight
  obtain ⟨block, compared, hstep, -, hsettle⟩ := Comparer.exists_step_of_turn hturn
  obtain ⟨hleft, hright⟩ := Comparer.taken_of_step_eq_compared hstep
  obtain ⟨hrestLeft, hrestRight⟩ := Comparer.rest_of_step_eq_compared hstep
  constructor
  · refine ⟨h.fits.of_sameShape (Comparer.sameShape_of_turn_goesOn hturn),
      goesOn_feed _ _ (hrestLeft ▸ Source.goesOn_fill _ h.left),
      goesOn_feed _ _ (hrestRight ▸ Source.goesOn_fill _ h.right), ?_⟩
    rcases Comparer.spool_of_settle hsettle with ⟨-, rfl⟩ | ⟨-, rfl⟩
    · exact h.pending
    · exact Spool.size_pending_write_le h.pending
  · have hgrows := Comparer.grows_of_settle h.fits hstep hsettle
    have hpos := h.fits.valid.1
    have hless := Comparer.byteCount_lt_of_step hstep
    have hsplit := left.byteCount_fill c.left.length
    have hsplit' := right.byteCount_fill c.right.length
    have htaken := Source.length_taken_of_goesOn h.left c.left.length
    have htaken' := Source.length_taken_of_goesOn h.right c.right.length
    rw [hleft, ← hrestLeft] at hsplit
    rw [hright, ← hrestRight] at hsplit'
    rw [hleft, h.fits.length_left] at htaken
    rw [hright, h.fits.length_right] at htaken'
    obtain ⟨loopedLeft, loopedRight⟩ := loop
    simp only [own, unread, fedLeft, fedRight, news, byteCount_feed]
    cases loopedLeft with
    | false =>
      cases loopedRight with
      | false =>
        left
        simpa using hless
      | true =>
        simp only [if_true, if_false, Bool.false_eq_true]
        by_cases hown : left.byteCount = 0
        · obtain ⟨hwidth, hmore⟩ := hgrows (by omega)
          exact Or.inr ⟨by omega, by omega, by omega, hwidth⟩
        · exact Or.inl (by omega)
    | true =>
      cases loopedRight with
      | false =>
        simp only [if_true, if_false, Bool.false_eq_true]
        by_cases hown : right.byteCount = 0
        · obtain ⟨hwidth, hmore⟩ := hgrows (by omega)
          exact Or.inr ⟨by omega, by omega, by omega, hwidth⟩
        · exact Or.inl (by omega)
      | true => exact absurd ⟨rfl, rfl⟩ hone

/-- A comparison that can read something goes on, if there is a column for its offsets. -/
theorem exists_turn_eq_goesOn (h : Midway layout style c left right spool)
    (hwidth : style.offsetWidth ≤ Hex.maxWidth) (hsome : left.byteCount + right.byteCount ≠ 0)
    (p : Progress) (log : Array LogEntry) :
    ∃ next p' left' right' spool' log',
      c.turn p left right spool log = .goesOn next p' left' right' spool' log' := by
  have hpos := h.fits.valid.1
  have htaken := Source.length_taken_of_goesOn h.left c.left.length
  have htaken' := Source.length_taken_of_goesOn h.right c.right.length
  rw [h.fits.length_left] at htaken
  rw [h.fits.length_right] at htaken'
  cases hstep : c.step left right with
  | finished compared =>
    obtain ⟨hnone, hnone'⟩ := Comparer.taken_of_step_eq_finished hstep
    rw [h.fits.length_left] at hnone
    rw [h.fits.length_right] at hnone'
    rw [hnone, List.length_nil] at htaken
    rw [hnone', List.length_nil] at htaken'
    omega
  | failed fault compared =>
    rw [Comparer.step_eq_react, Comparer.react, Source.fault_of_goesOn h.left,
      Source.fault_of_goesOn h.right] at hstep
    dsimp only at hstep
    split at hstep <;> cases hstep
  | compared block compared left' right' =>
    have hshape := Comparer.sameShape_of_step hstep
    have hcolumn : compared.style.offsetWidth ≤ Hex.maxWidth :=
      (h.fits.of_sameShape hshape).style_eq ▸ hwidth
    obtain ⟨settled, hsettle⟩ : ∃ settled, compared.settle p block spool log = .ok settled := by
      by_cases hdiffers : block.mask.differs
      · exact ⟨_, Comparer.settle_of_differs hcolumn hdiffers p spool log⟩
      · exact ⟨_, Comparer.settle_of_not_differs hdiffers p spool log⟩
    obtain ⟨next, spool', log'⟩ := settled
    refine ⟨next, p.advance c.layout.lineLength block, left', right', spool', log', ?_⟩
    rw [Comparer.turn, hstep]
    dsimp only
    rw [hsettle]

/-- **No way back.**  Let there be nothing left to read but the report, and let more of this be
unread than a spool holds back.  Then the comparison does not end. -/
theorem runFrom_eq_none (h : Midway layout style c left right spool)
    (hone : ¬(loop.left = true ∧ loop.right = true)) (hwidth : style.offsetWidth ≤ Hex.maxWidth)
    (hown : loop.own left right = 0) (hunread : Spool.capacity < loop.unread left right spool)
    (n : Nat) (p : Progress) (log : Array LogEntry) (hashing : Hashing) :
    loop.runFrom n c p left right spool log hashing = none := by
  induction n generalizing c p left right spool log hashing with
  | zero => rfl
  | succ n ih =>
    have hsome : left.byteCount + right.byteCount ≠ 0 := by
      have hpending := h.pending
      unfold unread at hunread
      split at hunread <;> split at hunread <;> omega
    obtain ⟨next, p', left', right', spool', log', hturn⟩ :=
      h.exists_turn_eq_goesOn hwidth hsome p log
    obtain ⟨hnext, hless | ⟨-, hown', hmore, -⟩⟩ := h.next_of_turn hone hturn
    · omega
    · rw [runFrom, hturn]
      exact ih hnext hown' (hunread.trans hmore) _ _ _

/-- **Enough blocks.**  A comparison that ends after some number of blocks ends in the same way if it
may take more, and it does not need more than what is watched allows for. -/
theorem runFrom_eq_of_le (h : Midway layout style c left right spool)
    (hone : ¬(loop.left = true ∧ loop.right = true)) {n m : Nat}
    {result : RunResult Spool × Hashing}
    (hrun : loop.runFrom n c p left right spool log hashing = some result)
    (hm : loop.toCome left right spool ≤ m) :
    loop.runFrom m c p left right spool log hashing = some result := by
  induction n generalizing c p left right spool log hashing m with
  | zero => cases hrun
  | succ n ih =>
    obtain ⟨m, rfl⟩ : ∃ k, m = k + 1 := Nat.exists_eq_add_of_le' ((Nat.le_add_left 1 _).trans hm)
    cases hturn : c.turn p left right spool log with
    | ended ended =>
      rw [runFrom, hturn] at hrun ⊢
      exact hrun
    | goesOn next p' left' right' spool' log' =>
      obtain ⟨hnext, hless⟩ := h.next_of_turn hone hturn
      have hrest := hrun
      rw [runFrom, hturn] at hrest ⊢
      refine ih hnext hrest ?_
      rcases hless with hless | ⟨hown, hown', hmore, hwidth⟩
      · unfold toCome at hm ⊢
        split at hm <;> split <;> omega
      · -- it has ended, so it was not too late for that
        have hunread : loop.unread left right spool ≤ Spool.capacity := by
          by_contra hlate
          rw [h.runFrom_eq_none hone hwidth hown (Nat.not_le.mp hlate)] at hrun
          cases hrun
        rw [toCome, hown, if_pos rfl] at hm
        rw [toCome, hown', if_pos rfl]
        omega

end Midway

/-! ### Whole comparisons -/

/-- A comparison into an input, as long as it does not take more than a number of blocks. -/
def within (loop : Loopback) (n : Nat) (c : Comparer) (left right : Source) :
    Option (RunResult Spool × Hashing) :=
  loop.runFrom n c {} (initial loop.left left) (initial loop.right right) {} #[] {}

variable {layout : Layout} {style : LineStyle} {c : Comparer}

/-- An input from which a window was filled without a fault is not a directory, unless it is empty
because of the report. -/
theorem goesOn_initial {looped : Bool} {node : Node} {room : Nat} (hroom : 1 ≤ room)
    (h : ((initial looped node.source).fill room).fault = none) :
    ∀ event ∈ initial looped node.source, event.GoesOn := by
  cases looped with
  | true => exact List.forall_mem_nil _
  | false =>
    cases node with
    | file content => exact Source.goesOn_inPieces _ _
    | directory =>
      have hfault : ((initial false Node.directory.source).fill room).fault =
          some .isADirectory := Node.fault_fill_directory hroom
      rw [hfault] at h
      cases h

/-- **Endless or not.**  Take a comparer that fits its layout, and two inputs as they are found.  The
comparison has a result exactly if it ends after some number of blocks, and it is this result. -/
theorem run_eq_some_iff (loop : Loopback) (hc : Comparer.Fits layout style c) (left right : Node)
    {result : RunResult Spool × Hashing} :
    loop.run c left.source right.source = some result ↔
      ∃ n, loop.within n c left.source right.source = some result := by
  refine ⟨fun h => ⟨_, h⟩, fun ⟨n, h⟩ => ?_⟩
  rw [run]
  rw [within] at h
  cases hturn : c.turn {} (initial loop.left left.source) (initial loop.right right.source)
      ({} : Spool) #[] with
  | ended ended =>
    -- it is over with the first block, if it may take one
    cases n with
    | zero => cases h
    | succ n =>
      rw [runFrom, hturn] at h ⊢
      exact h
  | goesOn next p' left' right' spool' log' =>
    obtain ⟨block, compared, hstep, -, -⟩ := Comparer.exists_step_of_turn hturn
    obtain ⟨hfault, hfault'⟩ := Comparer.fault_of_step_eq_compared hstep
    have hroom : 1 ≤ c.left.length := hc.length_left ▸ hc.valid.1
    have hroom' : 1 ≤ c.right.length := hc.length_right ▸ hc.valid.1
    have hmidway : Midway layout style c (initial loop.left left.source)
        (initial loop.right right.source) {} :=
      ⟨hc, goesOn_initial hroom hfault, goesOn_initial hroom' hfault', Nat.zero_le _⟩
    have hone : ¬(loop.left = true ∧ loop.right = true) := by
      -- both inputs would have been empty
      rintro ⟨hleft, hright⟩
      have hless := Comparer.byteCount_lt_of_step hstep
      rw [hleft, hright] at hless
      exact absurd hless (Nat.not_lt_zero _)
    exact hmidway.runFrom_eq_of_le hone h (loop.toCome_le _ _ _)

end Loopback

/-- **Endless means not ending.**  With everything in place, a comparison is reported as endless
exactly if its report goes to an input and it has not ended after any number of blocks. -/
theorem Preparation.outcome_run_eq_endless_iff {layout : Layout} {style : LineStyle}
    (prep : Preparation) (hc : Comparer.Fits layout style prep.comparer) :
    prep.run.outcome = .error .endless ↔
      prep.loopback.any = true ∧ ∀ n, prep.loopback.within n prep.comparer
        prep.left.node.source prep.right.node.source = none := by
  have hfinish (result : RunResult Spool) (hashing : Hashing) :
      (prep.finish result hashing).outcome ≠ .error .endless := by
    rw [finish, Target.outcome_deliver]
    intro hendless
    split at hendless
    · cases hendless
    · cases hendless
  have hends (result : RunResult Spool × Hashing) :
      prep.loopback.run prep.comparer prep.left.node.source prep.right.node.source = some result ↔
        ∃ n, prep.loopback.within n prep.comparer prep.left.node.source
          prep.right.node.source = some result :=
    prep.loopback.run_eq_some_iff hc prep.left.node prep.right.node
  rw [run]
  by_cases hany : prep.loopback.any = true
  · rw [if_pos hany, runLooped, and_iff_right hany]
    cases hrun : prep.loopback.run prep.comparer prep.left.node.source prep.right.node.source with
    | none =>
      refine iff_of_true rfl fun n => Option.eq_none_iff_forall_ne_some.mpr fun result hn => ?_
      rw [(hends result).mpr ⟨n, hn⟩] at hrun
      cases hrun
    | some ended =>
      obtain ⟨n, hn⟩ := (hends ended).mp hrun
      refine iff_of_false (hfinish _ _) fun hnone => ?_
      rw [hnone n] at hn
      cases hn
  · rw [if_neg hany]
    exact iff_of_false (hfinish _ _) fun h => hany h.1
end HexDiff
