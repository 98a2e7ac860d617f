import HexDiff.Proofs.Comparer.Machine

/-!
# Runs keep their preconditions

A run takes parts of its windows, marks its mask for them, and writes their lines, flag by flag and
digit by digit.  The machine of a run (`Machine.next`) checks what each of these relies on.  From the
one step that never breaks anything (`Machine.moves_next`) it follows that no run does, for all
comparers that come from a constructor, possibly by way of some runs (`Comparer.run_keeps`).
-/

namespace HexDiff
namespace Comparer

variable {layout : Layout} {style : LineStyle} {c : Comparer}

/-- Windows, mask and style all have the line length. -/
structure Sized (lineLength : Nat) (c : Comparer) : Prop where
  left : c.left.length = lineLength
  right : c.right.length = lineLength
  mask : c.mask.flags.length = lineLength
  style : c.style.capacity = lineLength

/-- A comparer that fits its layout is sized for it. -/
theorem Fits.sized (h : Fits layout style c) : c.Sized layout.lineLength where
  left := h.length_left
  right := h.length_right
  mask := h.capacity_mask
  style := by rw [h.style_eq, h.capacity_style]

end Comparer

namespace Machine

variable {σ : Type} {layout : Layout} {style : LineStyle} {m : Machine σ} {left right : Nat}

/-- The windows that a mask is marked for: not longer than a line, and not both empty. -/
theorem Sound.windows_of_mark (h : m.Sound layout style) (hpoint : m.point = .mark left right) :
    ∃ lft rgt, Checked.slice m.comparer.left 0 left = .ok lft ∧
      Checked.slice m.comparer.right 0 right = .ok rgt ∧
      lft.length ≤ layout.lineLength ∧ rgt.length ≤ layout.lineLength ∧ ¬(lft = [] ∧ rgt = []) := by
  obtain ⟨hleft, hright, hne⟩ := h.of_mark hpoint
  obtain ⟨hlft, hlength⟩ := h.fits.slice_left hleft
  obtain ⟨hrgt, hlength'⟩ := h.fits.slice_right hright
  refine ⟨_, _, hlft, hrgt, hlength.trans_le hleft, hlength'.trans_le hright, ?_⟩
  rwa [← List.length_eq_zero_iff, ← List.length_eq_zero_iff, hlength, hlength']

/-- The windows that are reported: not longer than a line. -/
theorem Sound.windows_of_report (h : m.Sound layout style)
    (hpoint : m.point = .report left right) :
    ∃ lft rgt, Checked.slice m.comparer.left 0 left = .ok lft ∧
      Checked.slice m.comparer.right 0 right = .ok rgt ∧
      lft.length ≤ layout.lineLength ∧ rgt.length ≤ layout.lineLength := by
  obtain ⟨hleft, hright, -, -⟩ := h.of_report hpoint
  obtain ⟨hlft, hlength⟩ := h.fits.slice_left hleft
  obtain ⟨hrgt, hlength'⟩ := h.fits.slice_right hright
  exact ⟨_, _, hlft, hrgt, hlength.trans_le hleft, hlength'.trans_le hright⟩

end Machine

namespace Comparer

variable {layout : Layout} {style : LineStyle} {c : Comparer}

/-- **No precondition is ever broken.**  Take a comparer that comes from a constructor, with any runs
behind it, and run it step by step on any two streams and any output.  However far it gets, no check
has failed.  Windows, mask and style have the line length all the time, and also when the run is over,
whether it has failed or not.  A mask is marked for two windows that are no longer than a line and not
both empty, and reported are two windows that are no longer than a line.  Without the checks, the
run is the same. -/
theorem run_keeps (hc : Reachable layout style c)
    (left right : Source) {σ : Type} [Outlet σ] (output : σ) :
    (∀ n breach, (Machine.start c left right output).after n ≠ .error (.broken breach)) ∧
      (∀ n m, (Machine.start c left right output).after n = .ok m →
        m.comparer.Sized layout.lineLength ∧
          (∀ l r, m.point = .mark l r → ∃ lft rgt,
            Checked.slice m.comparer.left 0 l = .ok lft ∧
              Checked.slice m.comparer.right 0 r = .ok rgt ∧
              lft.length ≤ layout.lineLength ∧ rgt.length ≤ layout.lineLength ∧
              ¬(lft = [] ∧ rgt = [])) ∧
          ∀ l r, m.point = .report l r → ∃ lft rgt,
            Checked.slice m.comparer.left 0 l = .ok lft ∧
              Checked.slice m.comparer.right 0 r = .ok rgt ∧
              lft.length ≤ layout.lineLength ∧ rgt.length ≤ layout.lineLength) ∧
      (∃ n, (Machine.start c left right output).after n =
        .error (.ended (c.run left right output))) ∧
      (c.run left right output).next.Sized layout.lineLength := by
  have hsound := Machine.sound_start hc.fits left right output
  have hcases := Machine.after_cases hsound
  refine ⟨fun n breach hbroken => ?_, fun n m hafter => ?_,
    ⟨_, Machine.after_start hc.fits left right output⟩, (hc.ran left right output).fits.sized⟩
  · obtain ⟨m, hafter, -, -⟩ | hended := hcases n
    · rw [hafter] at hbroken
      cases hbroken
    · rw [hended] at hbroken
      cases hbroken
  · obtain ⟨m', hafter', hsound', -⟩ | hended := hcases n
    · obtain rfl : m' = m := Except.ok.inj (hafter'.symm.trans hafter)
      exact ⟨hsound'.fits.sized, fun l r => hsound'.windows_of_mark,
        fun l r => hsound'.windows_of_report⟩
    · rw [hended] at hafter
      cases hafter

/-- A comparer that has failed to read, in its first run, and then to write. -/
theorem run_keeps_after_faults :
    ∃ c, ofStyle? ⟨4, 4, {}⟩ ⟨4, 4, [.base40Odd .standard]⟩ = .ok c ∧
      let failed := (c.run [.data [1, 2, 3], .failed .notFound] [.data [4]] "").next
      (∀ n breach, (Machine.start failed [.data [1, 2], .ended, .data [3]] [.data [4]]
        ({ room := some 9 } : Sink)).after n ≠ .error (.broken breach)) ∧
      (failed.run [.data [1, 2], .ended, .data [3]] [.data [4]]
        ({ room := some 9 } : Sink)).next.Sized 4 := by
  have hbuilt : ∃ c, ofStyle? ⟨4, 4, {}⟩ ⟨4, 4, [.base40Odd .standard]⟩ = .ok c := ⟨_, rfl⟩
  obtain ⟨c, hc⟩ := hbuilt
  obtain ⟨hbroken, -, -, hsized⟩ :=
    run_keeps (.ran (.built hc) [.data [1, 2, 3], .failed .notFound] [.data [4]] "")
      [.data [1, 2], .ended, .data [3]] [.data [4]] ({ room := some 9 } : Sink)
  exact ⟨c, hc, hbroken, hsized⟩

end Comparer
end HexDiff
