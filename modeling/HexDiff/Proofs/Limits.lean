import HexDiff.Proofs.Comparer.Course
import HexDiff.Proofs.Dump.Rows

/-!
# Outputs with a limit

A sink may take a limited number of bytes and then refuse.  Nothing up to the limit is lost on the
way, whichever write it falls into, and nothing comes through behind it: `Outlet.writeAll_limited`.

Comparisons and dumps are pieces of text that are written, and an end that they come to if all
pieces go through.  So what a limit does to them is told by the same run without one
(`limited_sink`): the bytes are cut at the limit, and the end is the fault of the sink exactly if
there was something to cut.
-/

namespace HexDiff

/-! ### Writing to a limited sink -/

namespace Sink

/-- An empty sink that takes `n` bytes and then reports a fault. -/
def limited (n : Nat) (whenFull : Fault) : Sink where
  room := some n
  whenFull := whenFull

variable {sink : Sink} {n : Nat} {bytes : List UInt8}

/-- What fits is taken as a whole. -/
theorem push_of_le (hroom : sink.room = some n) (h : bytes.length ≤ n) :
    sink.push bytes = (.ok (), { sink with
      written := sink.written ++ bytes
      room := some (n - bytes.length) }) := by
  have hdrop : bytes.drop n = [] := List.drop_eq_nil_of_le h
  simp only [push, hroom, hdrop, List.take_of_length_le h, List.isEmpty_nil, if_true]

/-- Of what does not fit, the first part is taken, and no room is left. -/
theorem push_of_lt (hroom : sink.room = some n) (h : n < bytes.length) :
    sink.push bytes = (.error sink.whenFull, { sink with
      written := sink.written ++ bytes.take n
      room := some 0 }) := by
  have hdrop : (bytes.drop n).isEmpty = false := by
    rw [List.isEmpty_eq_false_iff, ne_eq, List.drop_eq_nil_iff]
    omega
  have hrest : n - (bytes.take n).length = 0 := by
    rw [List.length_take]
    omega
  simp only [push, hroom, hdrop, hrest, Bool.false_eq_true, if_false]

end Sink

namespace Outlet

/-- A limited sink gets the bytes of all pieces up to its limit, and reports its fault exactly if
there are more. -/
theorem writeAll_limited {sink : Sink} {n : Nat} (hroom : sink.room = some n)
    (pieces : List (List Char)) :
    (writeAll sink pieces).1 =
        (if (utf8 pieces.flatten).length ≤ n then .ok () else .error sink.whenFull) ∧
      (writeAll sink pieces).2.written.toList =
        sink.written.toList ++ (utf8 pieces.flatten).take n := by
  induction pieces generalizing sink n with
  | nil => simp [writeAll, utf8]
  | cons piece pieces ih =>
    have hwrite : Outlet.write sink piece = sink.push (utf8 piece) := rfl
    rw [writeAll, hwrite, List.flatten_cons, utf8_append, List.length_append]
    rcases Nat.lt_or_ge n (utf8 piece).length with hlt | hle
    · -- the limit falls into this piece
      have hmore : ¬(utf8 piece).length + (utf8 pieces.flatten).length ≤ n := by omega
      rw [Sink.push_of_lt hroom hlt, if_neg hmore,
        List.take_append_of_le_length (Nat.le_of_lt hlt)]
      exact ⟨rfl, Array.toList_appendList⟩
    · -- the limit is further on
      have hmore : (utf8 piece).length + (utf8 pieces.flatten).length ≤ n ↔
          (utf8 pieces.flatten).length ≤ n - (utf8 piece).length := by omega
      have hroom' : { sink with
          written := sink.written ++ utf8 piece
          room := some (n - (utf8 piece).length) : Sink }.room =
        some (n - (utf8 piece).length) := rfl
      obtain ⟨houtcome, hwritten⟩ := ih hroom'
      rw [Sink.push_of_le hroom hle]
      refine ⟨?_, ?_⟩
      · simp only [hmore]
        exact houtcome
      · rw [hwritten, Array.toList_appendList, List.append_assoc, List.take_append,
          List.take_of_length_le hle]

/-- A sink with a limit beside one without: the bytes are cut at the limit, and the fault is
reported exactly if there was something to cut. -/
theorem writeAll_limited_eq (n : Nat) (whenFull : Fault) (pieces : List (List Char)) :
    let whole := writeAll ({} : Sink) pieces
    let cut := writeAll (Sink.limited n whenFull) pieces
    cut.2.written.toList = whole.2.written.toList.take n ∧
      cut.1 = if whole.2.written.size ≤ n then whole.1 else .error whenFull := by
  intro whole cut
  obtain ⟨sink, hwhole, -, harrived⟩ :=
    losslessSink.exists_writeAll (rfl : ({} : Sink).room = none) pieces
  have hwritten : sink.written.toList = utf8 pieces.flatten := harrived.trans (List.nil_append _)
  obtain ⟨houtcome, hcut⟩ := writeAll_limited (rfl : (Sink.limited n whenFull).room = some n) pieces
  have hsize : sink.written.size = (utf8 pieces.flatten).length := by
    rw [← Array.length_toList, hwritten]
  simp only [whole, cut]
  rw [hwhole, hcut, houtcome, hwritten, hsize]
  exact ⟨List.nil_append _, rfl⟩

end Outlet

/-- **An output with a limit.**  A comparison, by whatever comparer and on whatever streams, and a
dump, of whatever range and in whatever layout, behave on a sink with a limit as they do on one
without, up to the limit.  If everything has room, nothing is different.  Otherwise exactly the
first bytes arrive, as many as there is room for, and the fault of the sink is reported, also where
the run without a limit goes on to a failing stream. -/
theorem limited_sink (n : Nat) (whenFull : Fault) :
    (∀ (c : Comparer) (left right : Source),
      let whole := c.run left right ({} : Sink)
      let cut := c.run left right (Sink.limited n whenFull)
      cut.output.written.toList = whole.output.written.toList.take n ∧
        cut.outcome =
          if whole.output.written.size ≤ n then whole.outcome else .error (.fault whenFull)) ∧
      ∀ (layout : Layout) (content : List UInt8) (first : Nat) (last : Option Nat),
        let whole := Dump.run layout content first last ({} : Sink)
        let cut := Dump.run layout content first last (Sink.limited n whenFull)
        cut.output.written.toList = whole.output.written.toList.take n ∧
          cut.outcome =
            if whole.output.written.size ≤ n then whole.outcome else .error (.fault whenFull) := by
  constructor
  · intro c left right whole cut
    obtain ⟨hwritten, hfault⟩ :=
      Outlet.writeAll_limited_eq n whenFull (c.pieces {} (c.course left right).blocks)
    simp only [whole, cut]
    rw [c.output_run, c.output_run, c.outcome_run, c.outcome_run, hfault]
    refine ⟨hwritten, ?_⟩
    split <;> rfl
  · intro layout content first last whole cut
    obtain ⟨hwritten, hfault⟩ :=
      Outlet.writeAll_limited_eq n whenFull (Dump.pieces layout content first last)
    simp only [whole, cut]
    rw [Dump.output_run, Dump.output_run, Dump.outcome_run, Dump.outcome_run, hfault]
    refine ⟨hwritten, ?_⟩
    split <;> rfl

end HexDiff
