/-!
# Difference masks

A mask says for each position of a line whether the two windows shown there differ.  A position
inside both windows differs when its bytes do, a position inside only one window always does, and a
position past both never does.

The number of positions is fixed when a mask is made.  A mask is marked anew for each pair of
windows, and nothing of its former marks is left.
-/

namespace HexDiff

/-- A flag per position. -/
structure Mask where
  flags : List Bool
  deriving DecidableEq, Repr

/-- A maximal stretch of differing positions; `stop` is the first position after it. -/
structure Run where
  start : Nat
  stop : Nat
  deriving DecidableEq, Repr

namespace Mask

/-- A window that is longer than the mask. -/
structure Overflow where
  length : Nat
  capacity : Nat
  deriving DecidableEq, Repr

/-- The wording of the refusal. -/
def Overflow.message (e : Overflow) : String :=
  s!"window of {e.length} bytes exceeds mask capacity {e.capacity}"

/-- A mask of `capacity` positions, none of which differs. -/
def clear (capacity : Nat) : Mask :=
  ⟨List.replicate capacity false⟩

/-- The number of positions. -/
def capacity (m : Mask) : Nat :=
  m.flags.length

/-- Whether a position differs; positions past the end do not. -/
def get (m : Mask) (i : Nat) : Bool :=
  m.flags.getD i false

/-- The number of differing positions. -/
def count (m : Mask) : Nat :=
  m.flags.count true

/-- Whether any position differs. -/
def differs (m : Mask) : Bool :=
  m.flags.any id

/-! ### Marking -/

/-- Marks the positions that both windows have and leaves the flags behind them as they are.  The
result also tells whether the windows were known to differ already or do so at one of these
positions. -/
def markShared (different : Bool) : List Bool → List UInt8 → List UInt8 → List Bool × Bool
  | _ :: flags, l :: lft, r :: rgt =>
    let (flags, different) := markShared (different || l != r) flags lft rgt
    ((l != r) :: flags, different)
  | flags, _, _ => (flags, different)

/-- The flags with one value from position `start` up to position `stop`. -/
def setRange (flags : List Bool) (start stop : Nat) (value : Bool) : List Bool :=
  flags.mapIdx fun i flag => if start ≤ i ∧ i < stop then value else flag

/-- The flags of a pair of windows, as many as there were flags before, and whether the windows
differ.  The positions that both windows have come first, then those of the longer window alone, and
then all others. -/
def remark (flags : List Bool) (lft rgt : List UInt8) : List Bool × Bool :=
  let shorter := min lft.length rgt.length
  let longer := max lft.length rgt.length
  let (flags, different) := markShared false flags lft rgt
  let (flags, different) :=
    if shorter < longer then (setRange flags shorter longer true, true) else (flags, different)
  (setRange flags longer flags.length false, different)

/-- The mask marked anew for two windows. -/
def mark (m : Mask) (lft rgt : List UInt8) : Mask :=
  ⟨(remark m.flags lft rgt).1⟩

/-- Marks a mask anew in place: whether the windows differ, and the mask as it is then.  Windows
longer than the mask are refused before any flag has been touched. -/
def recompute (m : Mask) (lft rgt : List UInt8) : Except Overflow Bool × Mask :=
  let longer := max lft.length rgt.length
  if m.capacity < longer then (.error ⟨longer, m.capacity⟩, m)
  else
    let (flags, different) := remark m.flags lft rgt
    (.ok different, ⟨flags⟩)

/-- The mask marked anew, and whether the windows differ. -/
def compute (m : Mask) (lft rgt : List UInt8) : Except Overflow (Mask × Bool) :=
  let (outcome, marked) := m.recompute lft rgt
  outcome.map (marked, ·)

/-! ### Runs -/

/-- A place among the flags of a mask: a position, and the flags from there on. -/
structure Cursor where
  position : Nat
  flags : List Bool

namespace Cursor

/-- Moves on over flags of one value, up to the first other flag or the end. -/
def skip (value : Bool) (i : Nat) : List Bool → Cursor
  | [] => ⟨i, []⟩
  | flag :: flags => if flag = value then skip value (i + 1) flags else ⟨i, flag :: flags⟩

/-- The next run and the place behind it.  There is none if no flag is set from here on. -/
def next? (c : Cursor) : Option (Run × Cursor) :=
  let first := skip false c.position c.flags
  if first.flags = [] then none
  else
    let behind := skip true first.position first.flags
    some (⟨first.position, behind.position⟩, behind)

/-- There are no more flags behind a place than before it. -/
theorem length_flags_skip_le (value : Bool) (i : Nat) (flags : List Bool) :
    (skip value i flags).flags.length ≤ flags.length := by
  fun_induction skip value i flags with
  | case1 i => exact Nat.le_refl _
  | case2 i flags ih => exact Nat.le_succ_of_le ih
  | case3 i flag flags h => exact Nat.le_refl _

/-- What was moved over does not go on. -/
theorem head?_flags_skip (value : Bool) (i : Nat) (flags : List Bool) :
    (skip value i flags).flags.head? ≠ some value := by
  fun_induction skip value i flags with
  | case1 i => exact nofun
  | case2 i flags ih => exact ih
  | case3 i flag flags h => exact fun heq => h (Option.some.inj heq)

/-- A run has used up flags. -/
theorem length_flags_lt_of_next? {c behind : Cursor} {run : Run}
    (h : c.next? = some (run, behind)) : behind.flags.length < c.flags.length := by
  have hle := length_flags_skip_le false c.position c.flags
  have hhead := head?_flags_skip false c.position c.flags
  unfold next? at h
  dsimp only at h
  split at h
  · cases h
  · next hne =>
    cases h
    -- a flag that is not skipped as unset is a set one, and the run begins with it
    obtain ⟨flag, flags, hcons⟩ := List.exists_cons_of_ne_nil hne
    rw [hcons] at hle hhead ⊢
    have hflag : flag = true := by simpa using hhead
    rw [skip, if_pos hflag]
    have hmore := length_flags_skip_le true ((skip false c.position c.flags).position + 1) flags
    rw [List.length_cons] at hle
    omega

/-- The runs from a place on. -/
def runs (c : Cursor) : List Run :=
  match _h : c.next? with
  | none => []
  | some (run, behind) => run :: behind.runs
termination_by c.flags.length
decreasing_by exact length_flags_lt_of_next? _h

end Cursor

/-- The maximal stretches of differing positions, from left to right. -/
def runs (m : Mask) : List Run :=
  Cursor.runs ⟨0, m.flags⟩

end Mask
end HexDiff
