import HexDiff.Line
import HexDiff.Proofs.Base40.Appending
import HexDiff.Proofs.ScreenCodes

/-!
# What overlays show

Overlays are written one after the other behind the text of a line.  None of them looks at what is
there already, so each one adds what it shows by itself (`Overlay.renderOnto_eq`), and a line is its
columns with the texts of the overlays behind them (`LineStyle.row`).  Behind any text, it is this
line that is written, or none if its offset would need a column that cannot be
(`LineStyle.rowOnto_eq`).

Packed text is decoded unit by unit, and each unit that fails shows as an error.  The only one that
can fail is a byte left over at the end.  So what is shown is what the whole units decode to in one
piece, and perhaps one mark behind it (`Overlay.packedText_eq`).
-/

namespace HexDiff

/-- A whole unit in front leaves over as much as there was. -/
theorem Base40.length_cons_cons_mod (lo hi : UInt8) (rest : List UInt8) :
    (lo :: hi :: rest).length % bytesPerUnit = rest.length % bytesPerUnit :=
  Nat.add_mod_right rest.length 2

namespace Overlay

open Base40 (bytesPerUnit wordOfBytes length_cons_cons_mod)

variable (α : Base40.Alphabet)

/-! ### Packed text -/

/-- What packed text shows: the characters of each word, and a mark for a byte left over. -/
def packedText : List UInt8 → List Char
  | lo :: hi :: rest => α.decodeWord (wordOfBytes lo hi) ++ packedText rest
  | [_] => errorMarker
  | [] => []

/-- The errors of the units that show as errors. -/
def packedErrors (bytes : List UInt8) : List Base40.Error :=
  if bytes.length % bytesPerUnit = 0 then [] else [.inputLength 1 bytesPerUnit]

/-- A whole unit is decoded. -/
theorem unitOnto_word (shown : String × List Base40.Error) (lo hi : UInt8) :
    unitOnto α shown [lo, hi] =
      (shown.1 ++ String.ofList (α.decodeWord (wordOfBytes lo hi)), shown.2) := by
  have heven : [lo, hi].length % bytesPerUnit = 0 := length_cons_cons_mod lo hi []
  rw [unitOnto, α.decodeInto_of_even heven, Base40.Alphabet.decodeUnits,
    Base40.Alphabet.decodeUnits, List.append_nil]
  rintro _ _ _ ⟨⟩

/-- A byte left over shows as an error. -/
theorem unitOnto_byte (shown : String × List Base40.Error) (b : UInt8) :
    unitOnto α shown [b] =
      (shown.1 ++ String.ofList errorMarker,
        shown.2 ++ [.inputLength 1 bytesPerUnit]) := by
  have hodd : [b].length % bytesPerUnit ≠ 0 := Nat.one_ne_zero
  rw [unitOnto, α.decodeInto_of_odd hodd]
  rfl

/-- Units are added one after the other, and errors are noted in their order. -/
theorem foldl_unitOnto (shown : String × List Base40.Error) (bytes : List UInt8) :
    (units bytes).foldl (unitOnto α) shown =
      (shown.1 ++ String.ofList (packedText α bytes), shown.2 ++ packedErrors bytes) := by
  fun_induction units bytes generalizing shown with
  | case1 lo hi rest ih =>
    have herrors : packedErrors (lo :: hi :: rest) = packedErrors rest := by
      rw [packedErrors, packedErrors, length_cons_cons_mod]
    rw [List.foldl_cons, unitOnto_word, ih, packedText, String.ofList_append,
      String.append_assoc, herrors]
  | case2 b =>
    rw [List.foldl_cons, List.foldl_nil, unitOnto_byte]
    rfl
  | case3 =>
    have hnone : packedErrors [] = [] := rfl
    rw [List.foldl_nil, packedText, String.ofList_nil, String.append_empty, hnone,
      List.append_nil]

/-- Packed text behind a text is what it is by itself. -/
theorem packedOnto_eq (text : String) (bytes : List UInt8) :
    packedOnto α text bytes =
      (text ++ String.ofList (packedText α bytes), packedErrors bytes) := by
  rw [packedOnto, foldl_unitOnto, List.nil_append]

/-- What is shown is what the whole units decode to, with one mark behind it if a byte is left
over. -/
theorem packedText_eq (bytes : List UInt8) :
    packedText α bytes =
      α.decodeUnits (bytes.take (bytesPerUnit * (bytes.length / bytesPerUnit))) ++
        if bytes.length % bytesPerUnit = 1 then errorMarker else [] := by
  fun_induction packedText α bytes with
  | case1 lo hi rest ih =>
    have hlength : bytesPerUnit * ((lo :: hi :: rest).length / bytesPerUnit) =
        bytesPerUnit * (rest.length / bytesPerUnit) + 2 := by
      simp only [List.length_cons, bytesPerUnit]
      omega
    rw [hlength, length_cons_cons_mod, List.take_succ_cons, List.take_succ_cons,
      Base40.Alphabet.decodeUnits, ih, List.append_assoc]
  | case2 b => simp [bytesPerUnit, Base40.Alphabet.decodeUnits]
  | case3 => rfl

/-- Bytes that are whole units show the same whatever bytes are behind them. -/
theorem packedText_append {bytes : List UInt8} (h : bytes.length % bytesPerUnit = 0)
    (more : List UInt8) : packedText α (bytes ++ more) = packedText α bytes ++ packedText α more := by
  fun_induction packedText α bytes with
  | case1 lo hi rest ih =>
    rw [length_cons_cons_mod] at h
    rw [List.cons_append, List.cons_append, packedText, ih h, List.append_assoc]
  | case2 => cases h
  | case3 => rfl

/-! ### All overlays -/

/-- There is nothing between the two ends of a short window. -/
theorem inner_of_length_lt {window : List UInt8} (h : window.length < 2) : inner window = [] := by
  rcases window with _ | ⟨b, _ | ⟨b', window⟩⟩
  · rfl
  · rfl
  · simp only [List.length_cons] at h
    omega

/-- What each overlay shows for a window, and the errors of the units that show as errors. -/
def reading : Overlay → List UInt8 → List Char × List Base40.Error
  | screenCode, window => (window.map ScreenCode.decodeByte, [])
  | base40 α, window => (packedText α window, packedErrors window)
  | base40Odd α, window => (packedText α (inner window), packedErrors (inner window))
  | ascii, window => (window.map asciiChar, [])
  | custom _ read, window => (read window, [])

/-- This is what it adds to a text. -/
theorem renderOnto_eq_reading (o : Overlay) (text : String) (window : List UInt8) :
    o.renderOnto text window =
      (text ++ String.ofList (o.reading window).1, (o.reading window).2) := by
  cases o with
  | screenCode =>
    rw [renderOnto, ScreenCode.decodeOnto_eq]
    rfl
  | base40 α => exact packedOnto_eq α text window
  | base40Odd α =>
    rw [renderOnto, packedOnto_eq]
    split
    · next hshort =>
      rw [reading, inner_of_length_lt hshort, packedText, String.ofList_nil, String.append_empty]
      rfl
    · rfl
  | ascii =>
    rw [renderOnto, foldl_push]
    rfl
  | custom label read => rfl

/-- This is also what it shows by itself. -/
theorem render_eq (o : Overlay) (window : List UInt8) : o.render window = (o.reading window).1 := by
  rw [render, renderOnto_eq_reading, String.empty_append, String.toList_ofList]

/-- An overlay adds to any text what it shows by itself. -/
theorem renderOnto_eq (o : Overlay) (text : String) (window : List UInt8) :
    o.renderOnto text window = (text ++ String.ofList (o.render window), o.errors window) := by
  rw [render_eq, errors, renderOnto_eq_reading, renderOnto_eq_reading]

end Overlay

/-- The overlays that a set can have. -/
theorem OverlaySet.cases_of_mem {s : OverlaySet} {o : Overlay} (h : o ∈ s.toList) :
    o = .screenCode ∨ o = .base40 .standard ∨ o = .base40Odd .standard ∨ o = .ascii := by
  unfold toList at h
  grind

/-! ### Lines -/

namespace LineStyle

/-- The texts of the overlays, each after two spaces. -/
def overlayText (style : LineStyle) (bytes : List UInt8) : List Char :=
  style.overlays.flatMap fun o => ' ' :: ' ' :: o.render bytes

/-- Overlays add their texts to any text. -/
theorem overlaysOnto_eq (style : LineStyle) (text : String) (bytes : List UInt8) :
    style.overlaysOnto text bytes = text ++ String.ofList (style.overlayText bytes) := by
  unfold overlaysOnto overlayText
  induction style.overlays generalizing text with
  | nil => exact String.append_empty.symm
  | cons o overlays ih =>
    rw [List.foldl_cons, ih, Overlay.renderOnto_eq, List.flatMap_cons, ← String.toList_inj]
    simp

/-- What a line says: the offset, the cells under their flags, and the overlays of `bytes`. -/
def row (style : LineStyle) (offset : Nat) (blank : List Char) (cells : List (Option UInt8))
    (flags : List Bool) (bytes : List UInt8) : List Char :=
  Hex.padded style.offsetWidth offset ++ ':' :: columns blank 0 false flags cells ++
    style.overlayText bytes

/-- What the line of a window under a mask says. -/
def line (style : LineStyle) (offset : Nat) (window : List UInt8) (flags : List Bool) :
    List Char :=
  style.row offset missingByte (window.map some) flags window

variable {style : LineStyle}

/-- A line is written behind any text, if there can be a column for its offset. -/
theorem rowOnto_eq (h : style.offsetWidth ≤ Hex.maxWidth) (text : String) (offset : Nat)
    (blank : List Char) (cells : List (Option UInt8)) (flags : List Bool) (bytes : List UInt8) :
    style.rowOnto text offset blank cells flags bytes =
      .ok (text ++ String.ofList (style.row offset blank cells flags bytes)) := by
  have hbegun : Hex.paddedOnto text style.offsetWidth offset =
      .ok (text ++ String.ofList (Hex.padded style.offsetWidth offset)) :=
    if_neg (Nat.not_lt.mpr h)
  rw [rowOnto, hbegun, row, String.ofList_append, String.ofList_append, ← String.append_assoc,
    ← String.append_assoc, ← overlaysOnto_eq]
  rfl

/-- Otherwise there is no line. -/
theorem rowOnto_of_overwide (h : Hex.maxWidth < style.offsetWidth) (text : String) (offset : Nat)
    (blank : List Char) (cells : List (Option UInt8)) (flags : List Bool) (bytes : List UInt8) :
    style.rowOnto text offset blank cells flags bytes = .error ⟨style.offsetWidth⟩ := by
  have hbegun : Hex.paddedOnto text style.offsetWidth offset = .error ⟨style.offsetWidth⟩ :=
    if_pos h
  rw [rowOnto, hbegun]
  rfl

/-- So a line that is written is the one that the style says, behind what was there. -/
theorem lineOnto_eq_ok_iff {text after : String} {offset : Nat} {window : List UInt8}
    {flags : List Bool} :
    style.lineOnto text offset window flags = .ok after ↔
      style.offsetWidth ≤ Hex.maxWidth ∧
        after = text ++ String.ofList (style.line offset window flags) := by
  rw [lineOnto]
  rcases Nat.lt_or_ge Hex.maxWidth style.offsetWidth with hwide | hwidth
  · rw [rowOnto_of_overwide hwide]
    exact iff_of_false nofun fun h => Nat.not_le.mpr hwide h.1
  · rw [rowOnto_eq hwidth, Except.ok.injEq, eq_comm]
    exact (and_iff_right hwidth).symm

/-- The offsets of a valid layout have a column. -/
theorem offsetWidth_ofLayout_le {layout : Layout} (h : layout.Valid) :
    (ofLayout layout).offsetWidth ≤ Hex.maxWidth :=
  h.2.2.trans (by decide)

end LineStyle
end HexDiff
