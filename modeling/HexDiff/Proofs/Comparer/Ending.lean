import HexDiff.Proofs.Comparer.Machine

/-!
# Runs come to an end

Streams may report their end and go on, or be interrupted any number of times, and one of them may
come up empty block after block while the other one delivers.  What goes down with every step of a
run is the work that both streams have left together with the bytes in the windows
(`Machine.toDo`), so a run is over after as many steps (`Machine.after_toDo`).

A block is compared only if it has a byte, and its bytes are gone then.  So there are no more blocks
than bytes (`Machine.comparisons_le`).
-/

namespace HexDiff
namespace Machine

variable {σ : Type} [Outlet σ] {layout : Layout} {style : LineStyle} {m : Machine σ}

/-- The number of blocks that are compared by the first `n` steps of a run. -/
def comparisons : Nat → Machine σ → Nat
  | 0, _ => 0
  | n + 1, m =>
    match m.next with
    | .ok m' => m.comparing + comparisons n m'
    | .error _ => m.comparing

/-- No more blocks are compared than there are bytes to compare. -/
theorem comparisons_le (h : m.Sound layout style) (n : Nat) :
    m.comparisons n ≤ m.uncompared := by
  induction n generalizing m with
  | zero => exact Nat.zero_le _
  | succ n ih =>
    rw [comparisons]
    have hmoves := moves_next h
    generalize m.next = next at hmoves ⊢
    cases hmoves with
    | @goesOn m' hsound _ _ huncompared _ =>
      have hmore := ih hsound
      dsimp only
      omega
    | ended _ hcomparing _ =>
      dsimp only
      omega

/-- A run that ends well has counted the blocks that were compared. -/
theorem blocks_eq_of_ended (h : m.Sound layout style) {n : Nat}
    (hended : m.after n = .error (.ended m.result)) {stats : Stats}
    (hstats : m.result.outcome = .ok stats) : stats.blocks = m.compared + m.comparisons n := by
  induction n generalizing m with
  | zero => cases hended
  | succ n ih =>
    rw [after] at hended
    rw [comparisons]
    have hmoves := moves_next h
    generalize m.next = next at hmoves hended ⊢
    cases hmoves with
    | @goesOn m' hsound hresult _ _ hcompared =>
      rw [ok_bind, ← hresult] at hended
      rw [← hresult] at hstats
      rw [ih hsound hended hstats, hcompared]
      exact Nat.add_assoc _ _ _
    | ended hresult hcomparing hcompared =>
      dsimp only
      rw [hcomparing, Nat.add_zero]
      exact hcompared stats (hresult ▸ hstats)

end Machine

/-- **Runs end.**  Take a comparer that comes from a constructor, with any runs behind it, and any two
finite streams, whatever data, ends and faults they have in whatever order.  A run on them is over
after a number of steps that is known from the events and the bytes of the streams, where each step
makes at most one read.  It compares no more blocks than there are bytes in both streams, and if it
ends well, then its counter says how many. -/
theorem Comparer.run_ends {layout : Layout} {style : LineStyle} {c : Comparer}
    (hc : Reachable layout style c) (left right : Source) {σ : Type} [Outlet σ] (output : σ) :
    ∃ n, n ≤ left.length + right.length + 5 * (left.byteCount + right.byteCount) + 4 ∧
      (Machine.start c left right output).after n =
        .error (.ended (c.run left right output)) ∧
      (Machine.start c left right output).comparisons n ≤ left.byteCount + right.byteCount ∧
      ∀ stats, (c.run left right output).outcome = .ok stats →
        stats.blocks = (Machine.start c left right output).comparisons n := by
  have hsound := Machine.sound_start hc.fits left right output
  have hstart := Machine.result_start c left right output
  refine ⟨_, ?_, Machine.after_start hc.fits left right output,
    Machine.comparisons_le hsound _, fun stats hstats => ?_⟩
  · simp only [Machine.toDo, Machine.start, Source.work, Point.filled, Point.rank]
    omega
  · rw [Machine.blocks_eq_of_ended hsound (Machine.after_toDo hsound) (hstart.symm ▸ hstats)]
    exact Nat.zero_add _

/-- A left stream that reports its end, is interrupted, and then has one more byte, against an empty
one. -/
theorem Comparer.run_ends_resumed :
    ∃ c, ofStyle? ⟨4, 4, {}⟩ ⟨4, 4, []⟩ = .ok c ∧
      ∃ n, n ≤ 18 ∧
        (Machine.start c [.ended, .failed ⟨.interrupted, ""⟩, .data [65], .data [66]] [] "").after n =
          .error (.ended (c.run [.ended, .failed ⟨.interrupted, ""⟩, .data [65], .data [66]] [] "")) := by
  have hbuilt : ∃ c, ofStyle? ⟨4, 4, {}⟩ ⟨4, 4, []⟩ = .ok c := ⟨_, rfl⟩
  obtain ⟨c, hc⟩ := hbuilt
  obtain ⟨n, hn, hended, -⟩ :=
    run_ends (.built hc) [.ended, .failed ⟨.interrupted, ""⟩, .data [65], .data [66]] [] ""
  exact ⟨c, hc, n, hn, hended⟩

end HexDiff
