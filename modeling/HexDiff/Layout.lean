import HexDiff.Overlay

/-!
# Layouts

How reports are laid out: how many bytes a line shows, how wide the column of offsets is, and which
overlays follow the bytes.
-/

namespace HexDiff

/-- The layout of a report. -/
structure Layout where
  /-- Bytes compared and shown per line. -/
  lineLength : Nat := 32
  /-- Hex digits in the offset column. -/
  offsetWidth : Nat := 6
  /-- The overlays after the hex columns. -/
  overlays : OverlaySet := {}
  deriving DecidableEq, Repr

/-- A value that no layout may have. -/
inductive LayoutError where
  | lineLength (n : Nat)
  | offsetWidth (n : Nat)
  deriving DecidableEq, Repr

namespace Layout

/-- The widest column of offsets: the sixteen digits of a sixty-four-bit number. -/
def maxOffsetWidth : Nat := 16

/-- A line shows something, and the offset column has at least one digit and no more than any
offset needs. -/
def Valid (layout : Layout) : Prop :=
  1 ≤ layout.lineLength ∧ 1 ≤ layout.offsetWidth ∧ layout.offsetWidth ≤ maxOffsetWidth

instance (layout : Layout) : Decidable layout.Valid :=
  inferInstanceAs (Decidable (_ ∧ _ ∧ _))

/-- Refuses a layout that is not valid.  Of two faults, the line length is the one reported. -/
def check (layout : Layout) : Except LayoutError Unit :=
  if layout.lineLength = 0 then .error (.lineLength layout.lineLength)
  else if layout.offsetWidth = 0 ∨ maxOffsetWidth < layout.offsetWidth then
    .error (.offsetWidth layout.offsetWidth)
  else .ok ()

end Layout

/-- The wording of a refusal. -/
def LayoutError.message : LayoutError → String
  | .lineLength n => s!"line length must be at least 1, got {n}"
  | .offsetWidth n =>
    s!"offset width must be between 1 and {Layout.maxOffsetWidth}, got {n}"

/-- Exactly the valid layouts pass the check. -/
theorem Layout.check_eq_ok_iff (layout : Layout) : layout.check = .ok () ↔ layout.Valid := by
  unfold check Valid
  split
  · simp; omega
  · split
    · simp; omega
    · simp; omega

end HexDiff
