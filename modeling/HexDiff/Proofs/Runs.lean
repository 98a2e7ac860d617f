import HexDiff.Mask
import Mathlib.Algebra.Ring.Nat
import Mathlib.Order.Minimal
import Mathlib.Data.List.Chain
import Mathlib.Data.List.Pairwise

/-!
# The runs of a mask

The runs of a mask are its maximal stretches of set positions.  `Run.MaximalIn` says what that is: a
run is not empty, all its positions are set, and the positions next to it on both sides are not.

The runs are found one after the other, each by a look that starts at the place behind the one
before.  `Run.FirstFrom` says what one look finds, and `Mask.RunsFrom` what the looks from a place
on find together; the invariant of the walk is that the place is one in the mask
(`Mask.Cursor.At`).  So the list of the runs tells the mask (`Mask.Lists`): its stretches are not
empty, they come in order with an unset position between any two of them, and they hold the set
positions and no others.

Such a list has exactly the maximal stretches in it (`Mask.Lists.mem_iff`), and there is only one
(`Mask.eq_runs_iff_lists`).

A bracket is not about whole runs but about their ends: `Mask.exists_run_start_iff` tells where runs
begin, and `Mask.exists_run_stop_iff` where they end.
-/

namespace HexDiff

/-- A stretch of set positions that cannot be made longer on the left. -/
structure Run.Opened (run : Run) (m : Mask) : Prop where
  nonempty : run.start < run.stop
  set : ∀ i, run.start ≤ i → i < run.stop → m.get i = true
  left : run.start = 0 ∨ m.get (run.start - 1) = false

/-- A stretch of set positions that cannot be made longer. -/
structure Run.MaximalIn (run : Run) (m : Mask) : Prop extends run.Opened m where
  right : m.get run.stop = false

/-- Two stretches that share a position and cannot be made longer on the left begin together. -/
theorem Run.Opened.start_eq {m : Mask} {run run' : Run} (h : run.Opened m) (h' : run'.Opened m)
    {i : Nat} (hi : run.start ≤ i ∧ i < run.stop) (hi' : run'.start ≤ i ∧ i < run'.stop) :
    run.start = run'.start := by
  -- the position before the later beginning would be inside the other stretch
  have hnot : ∀ {a b : Run}, a.Opened m → b.Opened m → a.start ≤ i ∧ i < a.stop →
      b.start ≤ i ∧ i < b.stop → ¬a.start < b.start := by
    intro a b ha hb hai hbi hlt
    have hset := ha.set (b.start - 1) (by omega) (by omega)
    rcases hb.left with hzero | hunset
    · omega
    · rw [hset] at hunset
      cases hunset
  have hle := hnot h h' hi hi'
  have hge := hnot h' h hi' hi
  omega

/-- What a look for a run from position `i` on finds: behind unset positions a stretch of set ones,
and behind this an unset one. -/
structure Run.FirstFrom (run : Run) (m : Mask) (i : Nat) : Prop where
  le_start : i ≤ run.start
  unset : ∀ j, i ≤ j → j < run.start → m.get j = false
  nonempty : run.start < run.stop
  set : ∀ j, run.start ≤ j → j < run.stop → m.get j = true
  right : m.get run.stop = false

/-- Of two stretches the one is before the other, with an unset position between them. -/
def Run.Before (m : Mask) (run next : Run) : Prop :=
  ∃ i, run.stop ≤ i ∧ i < next.start ∧ m.get i = false

/-- The number of positions of a stretch. -/
def Run.length (run : Run) : Nat :=
  run.stop - run.start

namespace Mask

variable {m : Mask} {i : Nat}

/-! ### The walk over the flags -/

/-- The flag at a place, and the flags behind it. -/
theorem get_of_drop_eq_cons {here : Bool} {flags : List Bool}
    (h : m.flags.drop i = here :: flags) : m.get i = here ∧ m.flags.drop (i + 1) = flags := by
  constructor
  · have hhead : m.flags[i]? = some here := by
      rw [← Nat.add_zero i, ← List.getElem?_drop, h]
      rfl
    rw [get, List.getD_eq_getElem?_getD, hhead]
    rfl
  · rw [← List.drop_drop, h]
    rfl

/-- Positions behind the flags are not set. -/
theorem get_of_length_le (h : m.flags.length ≤ i) : m.get i = false := by
  rw [get, List.getD_eq_getElem?_getD, List.getElem?_eq_none h]
  rfl

/-- A place among the flags of this mask. -/
def Cursor.At (c : Cursor) (m : Mask) : Prop :=
  m.flags.drop c.position = c.flags

/-- Skipping leads to a place that is not before, over positions that all have the value. -/
theorem Cursor.at_skip (value : Bool) {flags : List Bool} (h : m.flags.drop i = flags) :
    (skip value i flags).At m ∧ i ≤ (skip value i flags).position ∧
      ∀ j, i ≤ j → j < (skip value i flags).position → m.get j = value := by
  fun_induction skip value i flags with
  | case1 i => exact ⟨h, le_rfl, fun j hlow hhigh => absurd hlow (Nat.not_le.mpr hhigh)⟩
  | case2 i flags ih =>
    obtain ⟨hget, hdrop⟩ := get_of_drop_eq_cons h
    obtain ⟨hat, hle, hall⟩ := ih hdrop
    refine ⟨hat, Nat.le_of_succ_le hle, fun j hlow hhigh => ?_⟩
    rcases Nat.eq_or_lt_of_le hlow with rfl | hlt
    · exact hget
    · exact hall j hlt hhigh
  | case3 i flag flags hne =>
    exact ⟨h, le_rfl, fun j hlow hhigh => absurd hlow (Nat.not_le.mpr hhigh)⟩

/-- The flag at a place tells whether its position is set. -/
theorem Cursor.At.get_position {c : Cursor} (h : c.At m) :
    m.get c.position = c.flags.head?.getD false := by
  cases hflags : c.flags with
  | nil => exact get_of_length_le (List.drop_eq_nil_iff.mp (h.trans hflags))
  | cons here flags => exact (get_of_drop_eq_cons (h.trans hflags)).1

/-- A look that finds nothing has met unset positions only. -/
theorem Cursor.get_of_next?_eq_none {c : Cursor} (h : c.At m) (hnone : c.next? = none) {j : Nat}
    (hj : c.position ≤ j) : m.get j = false := by
  obtain ⟨hat, -, hunset⟩ := at_skip false h
  unfold next? at hnone
  dsimp only at hnone
  split at hnone
  · next hnil =>
    rcases Nat.lt_or_ge j (skip false c.position c.flags).position with hlt | hge
    · exact hunset j hj hlt
    · exact get_of_length_le (le_trans (List.drop_eq_nil_iff.mp (hat.trans hnil)) hge)
  · cases hnone

/-- A look that finds a run stops behind it. -/
theorem Cursor.firstFrom_of_next? {c behind : Cursor} {run : Run} (h : c.At m)
    (hsome : c.next? = some (run, behind)) :
    run.FirstFrom m c.position ∧ behind.At m ∧ behind.position = run.stop := by
  obtain ⟨hat, hle, hunset⟩ := at_skip false h
  have hhead := head?_flags_skip false c.position c.flags
  unfold next? at hsome
  dsimp only at hsome
  split at hsome
  · cases hsome
  · next hne =>
    generalize skip false c.position c.flags = first at *
    obtain ⟨hat', hle', hset⟩ := at_skip true hat
    have hhead' := head?_flags_skip true first.position first.flags
    cases hsome
    -- the first place has a flag that is not unset, and the second has none that is set
    have hfirst : m.get first.position = true := by
      rw [hat.get_position]
      obtain ⟨flag, flags, hcons⟩ := List.exists_cons_of_ne_nil hne
      rw [hcons] at hhead ⊢
      simpa using hhead
    have hlast : m.get (skip true first.position first.flags).position = false := by
      rw [hat'.get_position]
      cases hflags : (skip true first.position first.flags).flags with
      | nil => rfl
      | cons flag flags =>
        rw [hflags] at hhead'
        simpa using hhead'
    refine ⟨⟨hle, hunset, lt_of_le_of_ne hle' fun heq => ?_, hset, hlast⟩, hat', rfl⟩
    dsimp only at heq
    rw [← heq, hfirst] at hlast
    cases hlast

/-- The runs from position `i` on, each found by a look from the end of the one before. -/
inductive RunsFrom (m : Mask) : Nat → List Run → Prop
  | none {i : Nat} (h : ∀ j, i ≤ j → m.get j = false) : RunsFrom m i []
  | cons {i : Nat} {run : Run} {runs : List Run} (h : run.FirstFrom m i)
    (hmore : RunsFrom m run.stop runs) : RunsFrom m i (run :: runs)

/-- The walk finds them. -/
theorem Cursor.runsFrom_runs {c : Cursor} (h : c.At m) : m.RunsFrom c.position c.runs := by
  fun_induction Cursor.runs c with
  | case1 c hnone => exact .none fun j => get_of_next?_eq_none h hnone
  | case2 c run behind hsome ih =>
    obtain ⟨hrun, hat, hposition⟩ := firstFrom_of_next? h hsome
    have hmore := ih hat
    rw [hposition] at hmore
    exact .cons hrun hmore

/-- The runs of a mask are those from its first position on. -/
theorem runsFrom_runs (m : Mask) : m.RunsFrom 0 m.runs :=
  Cursor.runsFrom_runs (c := ⟨0, m.flags⟩) List.drop_zero

/-! ### Lists of stretches -/

/-- A list of stretches tells a mask: none of them is empty, any two that follow each other are in
order and have an unset position between them, and the positions in them are the set ones. -/
structure Lists (m : Mask) (runs : List Run) : Prop where
  nonempty : ∀ run ∈ runs, run.start < run.stop
  apart : runs.IsChain (Run.Before m)
  set_iff : ∀ i, m.get i = true ↔ ∃ run ∈ runs, run.start ≤ i ∧ i < run.stop

/-- Runs that are found from a place on are not empty. -/
theorem RunsFrom.nonempty {runs : List Run} (h : m.RunsFrom i runs) :
    ∀ run ∈ runs, run.start < run.stop := by
  induction h with
  | none => exact List.forall_mem_nil _
  | cons hrun _ ih => exact List.forall_mem_cons.mpr ⟨hrun.nonempty, ih⟩

/-- The end of each of them is an unset position before the next one. -/
theorem RunsFrom.apart {runs : List Run} (h : m.RunsFrom i runs) :
    runs.IsChain (Run.Before m) := by
  induction h with
  | none => exact .nil
  | @cons i run runs hrun hmore ih =>
    cases hmore with
    | none => exact .singleton run
    | @cons _ next _ hnext _ =>
      refine .cons_cons ⟨run.stop, le_rfl, lt_of_le_of_ne hnext.le_start fun heq => ?_, hrun.right⟩
        ih
      have hset := hnext.set next.start le_rfl hnext.nonempty
      rw [← heq, hrun.right] at hset
      cases hset

/-- None of them begins before the place. -/
theorem RunsFrom.le_start {runs : List Run} (h : m.RunsFrom i runs) :
    ∀ run ∈ runs, i ≤ run.start := by
  induction h with
  | none => exact List.forall_mem_nil _
  | cons hrun _ ih =>
    refine List.forall_mem_cons.mpr ⟨hrun.le_start, fun next hnext => ?_⟩
    exact (hrun.le_start.trans hrun.nonempty.le).trans (ih next hnext)

/-- They hold the set positions from the place on. -/
theorem RunsFrom.set_iff {runs : List Run} (h : m.RunsFrom i runs) {j : Nat} (hj : i ≤ j) :
    m.get j = true ↔ ∃ run ∈ runs, run.start ≤ j ∧ j < run.stop := by
  induction h with
  | none hunset => simp [hunset j hj]
  | @cons i run runs hrun hmore ih =>
    rw [List.exists_mem_cons_iff]
    rcases Nat.lt_or_ge j run.stop with hlt | hge
    · -- the other runs are behind the end of this one
      have hnot : ¬∃ next ∈ runs, next.start ≤ j ∧ j < next.stop := by
        rintro ⟨next, hnext, hlow, -⟩
        have hle := hmore.le_start next hnext
        omega
      rw [or_iff_left hnot]
      rcases Nat.lt_or_ge j run.start with hbefore | hin
      · simp [hrun.unset j hj hbefore, Nat.not_le.mpr hbefore]
      · exact iff_of_true (hrun.set j hin hlt) ⟨hin, hlt⟩
    · rw [ih hge, or_iff_right fun hin => absurd hin.2 (Nat.not_lt.mpr hge)]

/-- The runs of a mask tell it. -/
theorem lists_runs (m : Mask) : m.Lists m.runs where
  nonempty := m.runsFrom_runs.nonempty
  apart := m.runsFrom_runs.apart
  set_iff i := m.runsFrom_runs.set_iff (Nat.zero_le i)

/-! ### There is only one such list -/

section Lists

variable {runs runs' : List Run} {run : Run}

/-- Each stretch of such a list is before all that follow it. -/
theorem Lists.pairwise_before (h : m.Lists runs) : runs.Pairwise (Run.Before m) := by
  -- over a stretch that is not empty one gets from the first unset position to the second
  have : Trans (fun run next => Run.Before m run next ∧ next.start < next.stop)
      (fun run next => Run.Before m run next ∧ next.start < next.stop)
      (fun run next => Run.Before m run next ∧ next.start < next.stop) := by
    constructor
    rintro a b c ⟨⟨i, hi, hib, hunset⟩, hb⟩ ⟨⟨j, hj, hjc, -⟩, hc⟩
    exact ⟨⟨i, hi, by omega, hunset⟩, hc⟩
  have hchain : runs.IsChain fun run next => Run.Before m run next ∧ next.start < next.stop :=
    h.apart.imp_of_mem_imp fun _ next _ hnext hbefore => ⟨hbefore, h.nonempty next hnext⟩
  exact (List.isChain_iff_pairwise.mp hchain).imp And.left

/-- Two stretches of such a list are the same one, or one of them is before the other. -/
theorem Lists.eq_or_before (h : m.Lists runs) {a b : Run} (ha : a ∈ runs) (hb : b ∈ runs) :
    a = b ∨ Run.Before m a b ∨ Run.Before m b a := by
  have : Std.Symm fun a b => a = b ∨ Run.Before m a b ∨ Run.Before m b a := by
    constructor
    rintro a b (heq | hbefore | hbehind)
    · exact Or.inl heq.symm
    · exact Or.inr (Or.inr hbefore)
    · exact Or.inr (Or.inl hbehind)
  have hall : runs.Pairwise fun a b => a = b ∨ Run.Before m a b ∨ Run.Before m b a :=
    h.pairwise_before.imp fun hbefore => Or.inr (Or.inl hbefore)
  refine hall.forall_of_forall (fun run _ => ?_) ha hb
  exact Or.inl rfl

/-- A position next to a stretch of such a list is in none of them. -/
theorem Lists.get_eq_false (h : m.Lists runs) (hrun : run ∈ runs) {i : Nat}
    (hi : i + 1 = run.start ∨ i = run.stop) : m.get i = false := by
  rw [← Bool.not_eq_true, h.set_iff]
  rintro ⟨other, hother, hlow, hhigh⟩
  have hnonempty := h.nonempty run hrun
  rcases h.eq_or_before hrun hother with rfl | ⟨j, hj, hj', -⟩ | ⟨j, hj, hj', -⟩
  · omega
  · omega
  · omega

/-- The stretches of such a list cannot be made longer. -/
theorem Lists.maximalIn (h : m.Lists runs) (hrun : run ∈ runs) : run.MaximalIn m where
  nonempty := h.nonempty run hrun
  set i hlow hhigh := (h.set_iff i).mpr ⟨run, hrun, hlow, hhigh⟩
  left := by
    rcases Nat.eq_zero_or_pos run.start with hzero | hpos
    · exact Or.inl hzero
    · exact Or.inr (h.get_eq_false hrun (Or.inl (Nat.sub_add_cancel hpos)))
  right := h.get_eq_false hrun (Or.inr rfl)

/-- A list that tells a mask has all its maximal stretches in it, and no others. -/
theorem Lists.mem_iff (h : m.Lists runs) : run ∈ runs ↔ run.MaximalIn m := by
  refine ⟨h.maximalIn, fun hmax => ?_⟩
  -- the stretch in the list that holds the first position begins and ends where this one does
  obtain ⟨other, hother, hlow, hhigh⟩ :=
    (h.set_iff run.start).mp (hmax.set run.start le_rfl hmax.nonempty)
  have hmax' := h.maximalIn hother
  have hstart : run.start = other.start :=
    hmax.toOpened.start_eq hmax'.toOpened ⟨le_rfl, hmax.nonempty⟩ ⟨hlow, hhigh⟩
  have hstop : run.stop = other.stop := by
    have hnonempty := hmax.nonempty
    rcases lt_trichotomy run.stop other.stop with hlt | heq | hgt
    · have hset := hmax'.set run.stop (by omega) hlt
      rw [hmax.right] at hset
      cases hset
    · exact heq
    · have hset := hmax.set other.stop (by omega) hgt
      rw [hmax'.right] at hset
      cases hset
  have hrun : run = other := by
    cases run
    cases other
    exact congrArg₂ Run.mk hstart hstop
  rwa [hrun]

/-- The stretches of such a list come in order. -/
theorem Lists.pairwise_start_lt (h : m.Lists runs) :
    runs.Pairwise fun run next => run.start < next.start := by
  refine h.pairwise_before.imp_of_mem fun {run next} hrun _ hbefore => ?_
  obtain ⟨i, hi, hi', -⟩ := hbefore
  have hnonempty := h.nonempty run hrun
  omega

/-- Two lists that tell the same mask are the same. -/
theorem Lists.eq (h : m.Lists runs) (h' : m.Lists runs') : runs = runs' := by
  have hnodup : ∀ {runs : List Run}, m.Lists runs → runs.Nodup := fun h =>
    h.pairwise_start_lt.imp fun hlt heq => Nat.ne_of_lt hlt (congrArg Run.start heq)
  have hperm : runs.Perm runs' := by
    rw [List.perm_ext_iff_of_nodup (hnodup h) (hnodup h')]
    exact fun run => h.mem_iff.trans h'.mem_iff.symm
  exact hperm.eq_of_pairwise (fun _ _ _ _ hlt hgt => absurd hgt hlt.asymm) h.pairwise_start_lt
    h'.pairwise_start_lt

end Lists

/-- The runs of a mask are its maximal stretches of set positions. -/
theorem mem_runs_iff (m : Mask) (run : Run) : run ∈ m.runs ↔ run.MaximalIn m :=
  m.lists_runs.mem_iff

/-! ### Where runs begin and end -/

/-- A run begins at a set position that has no set position before it. -/
theorem exists_run_start_iff (m : Mask) (i : Nat) :
    (∃ run ∈ m.runs, run.start = i) ↔ m.get i = true ∧ (i = 0 ∨ m.get (i - 1) = false) := by
  constructor
  · rintro ⟨run, hrun, rfl⟩
    have hmax := (m.mem_runs_iff run).mp hrun
    exact ⟨hmax.set run.start le_rfl hmax.nonempty, hmax.left⟩
  · rintro ⟨hget, hleft⟩
    -- it goes on up to the first position behind that is not set
    have hexists : ∃ stop, i ≤ stop ∧ m.get stop = false :=
      ⟨max i m.flags.length, le_max_left _ _, get_of_length_le (le_max_right _ _)⟩
    obtain ⟨stop, hmin⟩ := exists_minimal_of_wellFoundedLT _ hexists
    obtain ⟨hle, hright⟩ := hmin.prop
    have hset : ∀ j, i ≤ j → j < stop → m.get j = true := by
      intro j hj hlt
      rw [← Bool.not_eq_false]
      exact fun hunset => hmin.not_prop_of_lt hlt ⟨hj, hunset⟩
    have hlt : i < stop := by
      refine lt_of_le_of_ne hle ?_
      rintro rfl
      rw [hget] at hright
      cases hright
    exact ⟨⟨i, stop⟩, (m.mem_runs_iff _).mpr ⟨⟨hlt, hset, hleft⟩, hright⟩, rfl⟩

/-- A run ends behind a set position that has no set position behind it. -/
theorem exists_run_stop_iff (m : Mask) (i : Nat) :
    (∃ run ∈ m.runs, run.stop = i + 1) ↔ m.get i = true ∧ m.get (i + 1) = false := by
  constructor
  · rintro ⟨run, hrun, hstop⟩
    have hmax := (m.mem_runs_iff run).mp hrun
    have hnonempty := hmax.nonempty
    have hright := hmax.right
    rw [hstop] at hright
    exact ⟨hmax.set i (by omega) (by omega), hright⟩
  · rintro ⟨hget, hright⟩
    -- it has begun at the first position from which on all are set
    have hexists : ∃ start, start ≤ i ∧ ∀ j, start ≤ j → j ≤ i → m.get j = true := by
      refine ⟨i, le_rfl, fun j hlow hhigh => ?_⟩
      rw [le_antisymm hhigh hlow, hget]
    obtain ⟨start, hmin⟩ := exists_minimal_of_wellFoundedLT _ hexists
    obtain ⟨hle, hset⟩ := hmin.prop
    have hleft : start = 0 ∨ m.get (start - 1) = false := by
      rcases Nat.eq_zero_or_pos start with hzero | hpos
      · exact Or.inl hzero
      · right
        rw [← Bool.not_eq_true]
        intro hbefore
        refine hmin.not_prop_of_lt (Nat.sub_one_lt_of_lt hpos) ⟨by omega, fun j hlow hhigh => ?_⟩
        rcases Nat.lt_or_ge j start with hlt | hge
        · have hj : j = start - 1 := by omega
          rw [hj, hbefore]
        · exact hset j hge hhigh
    have hset' : ∀ j, start ≤ j → j < i + 1 → m.get j = true :=
      fun j hlow hhigh => hset j hlow (Nat.le_of_lt_succ hhigh)
    exact ⟨⟨start, i + 1⟩,
      (m.mem_runs_iff _).mpr ⟨⟨Nat.lt_succ_of_le hle, hset', hleft⟩, hright⟩, rfl⟩

/-! ### The positions in the runs -/

/-- The flags before a later place, if they are all the same. -/
theorem count_drop {value : Bool} {k : Nat} (hik : i ≤ k)
    (h : ∀ j, i ≤ j → j < k → m.get j = value) :
    (m.flags.drop i).count true = (if value then k - i else 0) + (m.flags.drop k).count true := by
  induction k, hik using Nat.le_induction with
  | base => simp
  | succ k hik ih =>
    have hk : m.get k = value := h k hik (Nat.lt_succ_self k)
    rw [ih fun j hlow hhigh => h j hlow (Nat.lt_succ_of_lt hhigh)]
    rcases Nat.lt_or_ge k m.flags.length with hlt | hge
    · have hflag : m.flags[k] = value := by
        rw [← hk, get, List.getD_eq_getElem?_getD, List.getElem?_eq_getElem hlt]
        rfl
      rw [List.drop_eq_getElem_cons hlt, hflag, List.count_cons]
      cases value with
      | false => simp
      | true =>
        simp only [if_true, beq_self_eq_true]
        omega
    · -- behind the flags nothing is set
      rw [get_of_length_le hge] at hk
      subst hk
      rw [List.drop_eq_nil_of_le hge, List.drop_eq_nil_of_le (Nat.le_succ_of_le hge)]
      rfl

/-- The runs from a place on have together as many positions as flags are set from there on. -/
theorem RunsFrom.sum_length {runs : List Run} (h : m.RunsFrom i runs) :
    (runs.map Run.length).sum = (m.flags.drop i).count true := by
  induction h with
  | @none i hunset =>
    have hall : i ≤ max i m.flags.length := le_max_left _ _
    rw [count_drop hall fun j hlow _ => hunset j hlow, List.drop_eq_nil_of_le (le_max_right _ _)]
    rfl
  | @cons i run runs hrun hmore ih =>
    rw [List.map_cons, List.sum_cons, ih, count_drop hrun.le_start hrun.unset,
      count_drop hrun.nonempty.le hrun.set, Run.length]
    simp

/-- **The runs of a mask.**  Whatever the size of a mask, there is one list of stretches that tells
it, and this is the list of its runs: none of the stretches is empty, any two that follow each other
have an unset position between them, and the positions in them are the set ones and no others.  The
runs come in strictly increasing order, and together they are as long as there are set positions. -/
theorem eq_runs_iff_lists (m : Mask) :
    (∀ runs : List Run, runs = m.runs ↔ m.Lists runs) ∧
      m.runs.Pairwise (fun run next => run.stop < next.start) ∧
      (m.runs.map Run.length).sum = m.count := by
  refine ⟨fun runs => ⟨?_, fun h => h.eq m.lists_runs⟩, ?_, m.runsFrom_runs.sum_length⟩
  · rintro rfl
    exact m.lists_runs
  · refine m.lists_runs.pairwise_before.imp fun {run next} hbefore => ?_
    obtain ⟨i, hi, hi', -⟩ := hbefore
    exact lt_of_le_of_lt hi hi'

/-- Runs at both ends, and a run of one position. -/
example : runs ⟨[true, true, false, false, true, false, false, true]⟩ =
    [⟨0, 2⟩, ⟨4, 5⟩, ⟨7, 8⟩] := by decide +kernel

end Mask
end HexDiff
