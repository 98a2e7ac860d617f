import HexDiff.Files.Hashing
import HexDiff.Proofs.Comparer.Progress

/-!
# Digests of what is read

A message may be cut into pieces anywhere: a hasher that has taken in all of them has the digest
of the message (`Sha256.Hasher.Holds.digest_eq`).  The invariant is that a hasher holds the
running value of some whole blocks of the message together with the bytes behind them
(`Sha256.Hasher.Holds`).

The hashers that look on at a comparison make no difference to it (`Comparer.hashedFrom_fst`).  They
take in what its reads get, and that makes up the windows of its blocks
(`Comparer.holds_hashedFrom`).  The windows of a content make up the content, and a comparer that
comes to its end has not stopped before both contents are used up, so the digests are those of the
whole contents, also of the shorter one (`Comparer.digest_hashedRun`).
-/

namespace HexDiff

/-! ### Messages in pieces -/

namespace Sha256

/-- Whole blocks in front are absorbed first. -/
theorem absorb_append (s : State) {front : List UInt8} (h : front.length % 64 = 0)
    (rest : List UInt8) : absorb s (front ++ rest) = absorb (absorb s front) rest := by
  fun_induction absorb s front with
  | case1 s => rfl
  | case2 s b more ih =>
    rw [List.length_cons] at h
    have hlong : 63 ≤ more.length := by omega
    have hmore : (more.drop 63).length % 64 = 0 := by
      rw [List.length_drop]
      omega
    rw [List.cons_append, absorb, List.take_append_of_le_length hlong,
      List.drop_append_of_le_length hlong, ih hmore]

namespace Hasher

/-- What a hasher has taken in: whole blocks of the message, which went into the running value, and
the bytes behind them. -/
structure Holds (h : Hasher) (message : List UInt8) : Prop where
  length_eq : h.length = message.length
  absorbed : ∃ front, message = front ++ h.pending ∧ front.length % 64 = 0 ∧
    h.state = absorb .initial front

/-- A new hasher has taken in nothing. -/
theorem holds_nil : Holds {} [] where
  length_eq := rfl
  absorbed := ⟨[], rfl, rfl, by rw [absorb]⟩

/-- One more piece. -/
theorem Holds.update {h : Hasher} {message : List UInt8} (hm : h.Holds message)
    (piece : List UInt8) : (h.update piece).Holds (message ++ piece) := by
  obtain ⟨front, hmessage, hfront, hstate⟩ := hm.absorbed
  refine ⟨?_, front ++ (h.pending ++ piece).take
    ((h.pending ++ piece).length - (h.pending ++ piece).length % 64), ?_, ?_, ?_⟩
  · rw [List.length_append, ← hm.length_eq]
    rfl
  · rw [hmessage, List.append_assoc, List.append_assoc]
    exact congrArg (front ++ ·) (List.take_append_drop _ _).symm
  · rw [List.length_append, List.length_take]
    omega
  · rw [absorb_append _ hfront, ← hstate]
    rfl

/-- Some more pieces, one after the other. -/
theorem Holds.foldl_update {h : Hasher} {message : List UInt8} (hm : h.Holds message)
    (pieces : List (List UInt8)) :
    (pieces.foldl Hasher.update h).Holds (message ++ pieces.flatten) := by
  induction pieces generalizing h message with
  | nil => rwa [List.flatten_nil, List.append_nil]
  | cons piece pieces ih =>
    rw [List.flatten_cons, ← List.append_assoc]
    exact ih (hm.update piece)

/-- The digest of what has been taken in. -/
theorem Holds.digest_eq {h : Hasher} {message : List UInt8} (hm : h.Holds message) :
    h.digest = sha256 message := by
  obtain ⟨front, hmessage, hfront, hstate⟩ := hm.absorbed
  rw [digest, sha256, hm.length_eq, hstate, ← absorb_append _ hfront, ← List.append_assoc,
    ← hmessage]

/-- The letters `abc` in two pieces, with the digest that is known for them. -/
example : Hex.digest ((({} : Hasher).update [97, 98]).update [99]).digest =
    "ba7816bf8f01cfea414140de5dae2223b00361a396177a9cb410ff61f20015ad" := by
  decide +kernel

end Hasher
end Sha256

/-! ### The windows of a content -/

/-- The windows of the first blocks, one after the other, make up the front of a content. -/
theorem flatMap_window (lineLength : Nat) (bytes : List UInt8) (k : Nat) :
    (List.range k).flatMap (window lineLength bytes) = bytes.take (k * lineLength) := by
  induction k with
  | zero => simp
  | succ k ih =>
    rw [List.range_succ, List.flatMap_append, ih, List.flatMap_singleton, window, Nat.succ_mul,
      List.take_add]

/-! ### Hashers that look on -/

namespace Comparer

/-- A run is the same whether hashers look on or not. -/
theorem hashedFrom_fst {σ : Type} [Outlet σ] (c : Comparer) (p : Progress) (left right : Source)
    (output : σ) (log : Array LogEntry) (hashing : Hashing) :
    (c.hashedFrom p left right output log hashing).1 = c.runFrom p left right output log := by
  fun_induction hashedFrom c p left right output log hashing with
  | case1 c p left right output log hashing result hturn =>
    rw [runFrom]
    split
    · next hturn' => exact Turn.ended.inj (hturn.symm.trans hturn')
    · next hturn' => cases hturn.symm.trans hturn'
  | case2 c p left right output log hashing next p' left' right' output' log' hturn ih =>
    rw [runFrom]
    split
    · next hturn' => cases hturn.symm.trans hturn'
    · next hturn' =>
      cases hturn.symm.trans hturn'
      exact ih

/-- In a step whose left stream does not fail, both hashers look on. -/
theorem hashStep_eq (c : Comparer) {left : Source} (right : Source)
    (hnone : (left.fill c.left.length).fault = none) (hashing : Hashing) :
    c.hashStep left right hashing =
      ⟨(left.reads c.left.length).foldl Sha256.Hasher.update hashing.left,
        (right.reads c.right.length).foldl Sha256.Hasher.update hashing.right⟩ := by
  rw [hashStep, hnone]
  rfl

/-- The hashers take in what a step gets into the windows, if it does not fail. -/
theorem holds_hashStep (c : Comparer) {left : Source} (right : Source)
    (hnone : (left.fill c.left.length).fault = none) {hashing : Hashing} {lft rgt : List UInt8}
    (hlft : hashing.left.Holds lft) (hrgt : hashing.right.Holds rgt) :
    (c.hashStep left right hashing).left.Holds (lft ++ (left.fill c.left.length).taken) ∧
      (c.hashStep left right hashing).right.Holds (rgt ++ (right.fill c.right.length).taken) := by
  rw [c.hashStep_eq right hnone, ← Source.flatten_reads, ← Source.flatten_reads]
  exact ⟨hlft.foldl_update _, hrgt.foldl_update _⟩

/-- So they take in the windows of all blocks that a comparer meets, if it comes to the end of
them. -/
theorem holds_hashedFrom {σ : Type} [Outlet σ] (c : Comparer) (p : Progress)
    (left right : Source) (output : σ) (log : Array LogEntry) (hashing : Hashing)
    {lft rgt : List UInt8} (hlft : hashing.left.Holds lft) (hrgt : hashing.right.Holds rgt)
    {stats : Stats} (hok : (c.runFrom p left right output log).outcome = .ok stats) :
    let hashing' := (c.hashedFrom p left right output log hashing).2
    hashing'.left.Holds (lft ++ (c.course left right).blocks.flatMap (·.left)) ∧
      hashing'.right.Holds (rgt ++ (c.course left right).blocks.flatMap (·.right)) := by
  rw [← hashedFrom_fst c p left right output log hashing] at hok
  fun_induction hashedFrom c p left right output log hashing generalizing lft rgt with
  | case1 c p left right output log hashing result hturn =>
    obtain ⟨hstep, -, -⟩ := step_of_turn_ended_ok hturn hok
    have hholds := c.holds_hashStep right (fault_of_step_eq_finished hstep) hlft hrgt
    obtain ⟨hleft, hright⟩ := taken_of_step_eq_finished hstep
    rw [hleft, hright] at hholds
    rw [course_eq, hstep]
    exact hholds
  | case2 c p left right output log hashing next p' left' right' output' log' hturn ih =>
    obtain ⟨block, compared, hstep, -, hsettle⟩ := exists_step_of_turn hturn
    obtain ⟨line, rfl⟩ := exists_reline_of_settle_ok hsettle
    obtain ⟨hlft', hrgt'⟩ :=
      c.holds_hashStep right (fault_of_step_eq_compared hstep).1 hlft hrgt
    obtain ⟨hleft, hright⟩ := taken_of_step_eq_compared hstep
    have hholds := ih hlft' hrgt' hok
    rw [course_reline, Course.blocks_reline, hleft, hright, List.append_assoc,
      List.append_assoc] at hholds
    rw [course_eq, hstep]
    exact hholds

variable {layout : Layout} {style : LineStyle} {c : Comparer}

/-- The digests of a comparison that comes to its end are those of the two contents, whichever of
them is longer. -/
theorem digest_hashedRun {σ : Type} [Outlet σ] (hc : Fits layout style c) {left right : Source}
    {lft rgt : List UInt8} (hleft : left.Delivers lft none) (hright : right.Delivers rgt none)
    {output : σ} {stats : Stats} (hok : (c.run left right output).outcome = .ok stats) :
    (c.hashedRun left right output).2.left.digest = sha256 lft ∧
      (c.hashedRun left right output).2.right.digest = sha256 rgt := by
  have hall := max_length_le_blockCount_mul hc.valid.1 lft rgt
  obtain ⟨hblocks, -⟩ := blocks_course hc hleft hright
  obtain ⟨hlft, hrgt⟩ := c.holds_hashedFrom {} left right output #[] {} Sha256.Hasher.holds_nil
    Sha256.Hasher.holds_nil hok
  rw [hblocks, List.flatMap_map, List.nil_append] at hlft hrgt
  have hwhole : ∀ bytes : List UInt8, bytes.length ≤ max lft.length rgt.length →
      (List.range (blockCount layout.lineLength lft rgt)).flatMap
        (window layout.lineLength bytes) = bytes := by
    intro bytes hle
    rw [flatMap_window, List.take_of_length_le (le_trans hle hall)]
  constructor
  · rw [hashedRun, hlft.digest_eq]
    exact congrArg sha256 (hwhole lft (Nat.le_max_left _ _))
  · rw [hashedRun, hrgt.digest_eq]
    exact congrArg sha256 (hwhole rgt (Nat.le_max_right _ _))

end Comparer
end HexDiff
