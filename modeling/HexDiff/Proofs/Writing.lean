import HexDiff.Stream.Outlet

/-!
# Writing a sequence of pieces

A report is written piece by piece.  `Outlet.writeAll` is what becomes of an outlet when several
pieces are written to it: it stops at the first one that does not go through.

Some outlets never refuse anything, and what has arrived can be read off them.  A `Lossless` view of
an outlet says so; `Lossless.exists_writeAll` is then the only thing to know about writing.  Texts
have such a view, and so have sinks without a limit.
-/

namespace HexDiff

/-- The bytes of a text written after another one. -/
@[simp] theorem utf8_append (cs ds : List Char) : utf8 (cs ++ ds) = utf8 cs ++ utf8 ds := by
  simp [utf8]

/-- Only a text without characters has no bytes. -/
@[simp] theorem utf8_eq_nil_iff {cs : List Char} : utf8 cs = [] ↔ cs = [] := by
  cases cs <;> simp [utf8, String.utf8EncodeChar_ne_nil]

namespace Outlet

variable {σ : Type} [Outlet σ]

/-- Writes pieces one after the other, up to the first that is refused. -/
def writeAll (output : σ) : List (List Char) → Except Fault Unit × σ
  | [] => (.ok (), output)
  | piece :: pieces =>
    match Outlet.write output piece with
    | (.ok (), output') => writeAll output' pieces
    | (.error fault, output') => (.error fault, output')

/-- A way to see that an outlet never refuses anything: from an open state every write goes through,
leaves the outlet open, and adds the bytes of the piece to those that have arrived. -/
structure Lossless (σ : Type) [Outlet σ] where
  /-- The states from which nothing is refused. -/
  Open : σ → Prop
  /-- The bytes that have arrived. -/
  arrived : σ → List UInt8
  write_of_open {output : σ} (h : Open output) (piece : List Char) :
    ∃ output', Outlet.write output piece = (.ok (), output') ∧ Open output' ∧
      arrived output' = arrived output ++ utf8 piece

/-- All pieces arrive, in their order. -/
theorem Lossless.exists_writeAll (view : Lossless σ) {output : σ} (h : view.Open output)
    (pieces : List (List Char)) :
    ∃ output', writeAll output pieces = (.ok (), output') ∧ view.Open output' ∧
      view.arrived output' = view.arrived output ++ utf8 pieces.flatten := by
  induction pieces generalizing output with
  | nil => exact ⟨output, rfl, h, by simp [utf8]⟩
  | cons piece pieces ih =>
    obtain ⟨middle, hwrite, hmiddle, harrived⟩ := view.write_of_open h piece
    obtain ⟨last, hall, hlast, harrived'⟩ := ih hmiddle
    refine ⟨last, ?_, hlast, ?_⟩
    · simp only [writeAll, hwrite, hall]
    · rw [harrived', harrived, List.flatten_cons, utf8_append, List.append_assoc]

/-- A text takes everything. -/
def losslessText : Lossless String where
  Open _ := True
  arrived text := utf8 text.toList
  write_of_open _ piece := ⟨_, rfl, trivial, by simp⟩

/-- A sink without a limit takes everything. -/
def losslessSink : Lossless Sink where
  Open sink := sink.room = none
  arrived sink := sink.written.toList
  write_of_open {sink} h piece := by
    refine ⟨{ sink with written := sink.written ++ utf8 piece }, ?_, h, by simp⟩
    simp only [Outlet.write, Sink.push, h]

/-- What arrives in a text is the text itself. -/
theorem writeAll_text (text : String) (pieces : List (List Char)) :
    writeAll text pieces = (.ok (), text ++ String.ofList pieces.flatten) := by
  induction pieces generalizing text with
  | nil => simp [writeAll]
  | cons piece pieces ih =>
    simp only [writeAll, Outlet.write, ih, List.flatten_cons, String.ofList_append,
      String.append_assoc]

end Outlet
end HexDiff
