import HexDiff.Proofs.Places

/-!
# How wide overlays are

What an overlay shows has as many characters as the number of bytes requires, and no byte and no
alphabet changes that (`Overlay.length_render`): one for each byte that is read as a character, and
three for each unit of packed text, since the mark for a byte left over is as wide as a word.

So the lines of windows of one length are equally long, and their overlays stand below each other
(`LineStyle.length_row`).  Together with what packed text shows this is `overlays_keep_width`.
-/

namespace HexDiff
namespace Overlay

open Base40 (bytesPerUnit)

/-! ### One overlay -/

/-- An overlay is one of the four given ones. -/
def Given : Overlay → Prop
  | custom _ _ => False
  | _ => True

/-- The number of characters that a given overlay shows for a window of `n` bytes. -/
def width : Overlay → Nat → Nat
  | screenCode, n => n
  | base40 _, n => 3 * ((n + 1) / 2)
  | base40Odd _, n => 3 * ((n - 2 + 1) / 2)
  | ascii, n => n
  | custom _ _, _ => 0

/-- Given overlays of one name are equally wide, whatever their alphabets. -/
theorem width_eq_of_name_eq {o o' : Overlay} (ho : o.Given) (ho' : o'.Given)
    (h : o.name = o'.name) (n : Nat) : o.width n = o'.width n := by
  cases o with
  | custom label read => exact absurd ho not_false
  | _ =>
    cases o' with
    | custom label read => exact absurd ho' not_false
    | _ => simp [name] at h <;> rfl

/-- Packed text has three characters for each unit, and for a byte left over. -/
theorem length_packedText (α : Base40.Alphabet) (bytes : List UInt8) :
    (packedText α bytes).length = 3 * ((bytes.length + 1) / 2) := by
  fun_induction packedText α bytes with
  | case1 lo hi rest ih =>
    rw [List.length_append, ih, Base40.Alphabet.decodeWord_eq]
    simp only [List.length_cons, List.length_nil]
    omega
  | case2 b => simp [errorMarker]
  | case3 => rfl

/-- Behind the characters of the first `u` units, packed text shows the bytes behind these units. -/
theorem drop_packedText (α : Base40.Alphabet) {bytes : List UInt8} {u : Nat}
    (hu : 2 * u ≤ bytes.length) :
    (packedText α bytes).drop (3 * u) = packedText α (bytes.drop (2 * u)) := by
  have hlength : (bytes.take (2 * u)).length = 2 * u := List.length_take_of_le hu
  have heven : (bytes.take (2 * u)).length % bytesPerUnit = 0 := by
    rw [hlength, bytesPerUnit, Nat.mul_mod_right]
  have hbefore : (packedText α (bytes.take (2 * u))).length = 3 * u := by
    rw [length_packedText, hlength]
    omega
  have hsplit := packedText_append α heven (bytes.drop (2 * u))
  rw [List.take_append_drop] at hsplit
  rw [hsplit, ← hbefore, List.drop_left]

/-- Unit `u` of packed text, if it is a whole one, is the word of its two bytes. -/
theorem take_drop_packedText (α : Base40.Alphabet) {bytes : List UInt8} {u : Nat} {lo hi : UInt8}
    (hlo : bytes[2 * u]? = some lo) (hhi : bytes[2 * u + 1]? = some hi) :
    ((packedText α bytes).drop (3 * u)).take 3 = α.decodeWord (Base40.wordOfBytes lo hi) := by
  obtain ⟨hlt, hlo⟩ := List.getElem?_eq_some_iff.mp hlo
  obtain ⟨hlt', hhi⟩ := List.getElem?_eq_some_iff.mp hhi
  rw [drop_packedText α (Nat.le_of_lt hlt), List.drop_eq_getElem_cons hlt,
    List.drop_eq_getElem_cons hlt', hlo, hhi, packedText, Base40.Alphabet.decodeWord_eq]
  rfl

/-- If only one of its bytes is there, it is the mark of an error. -/
theorem take_drop_packedText_of_length (α : Base40.Alphabet) {bytes : List UInt8} {u : Nat}
    (hu : bytes.length = 2 * u + 1) :
    ((packedText α bytes).drop (3 * u)).take 3 = errorMarker := by
  have hlt : 2 * u < bytes.length := by omega
  rw [drop_packedText α (Nat.le_of_lt hlt), List.drop_eq_getElem_cons hlt,
    List.drop_of_length_le (Nat.le_of_eq hu)]
  rfl

/-- What is between the two ends of a window. -/
theorem length_inner (window : List UInt8) : (inner window).length = window.length - 2 := by
  rw [inner, List.length_dropLast, List.length_tail, Nat.sub_sub]

/-- A given overlay is as wide as the number of bytes requires. -/
theorem length_render {o : Overlay} (h : o.Given) (window : List UInt8) :
    (o.render window).length = o.width window.length := by
  rw [render_eq]
  cases o with
  | screenCode => exact List.length_map _
  | base40 α => exact length_packedText α window
  | base40Odd α =>
    rw [width, ← length_inner]
    exact length_packedText α (inner window)
  | ascii => exact List.length_map _
  | custom label read => exact absurd h not_false

/-! ### Packed overlays behind a text -/

/-- Packed text behind a text is what the whole units of a window decode to, with a mark behind it
if a byte is left over, which is also the only error. -/
theorem renderOnto_base40 (α : Base40.Alphabet) (text : String) (window : List UInt8) :
    ∃ decoded, α.decode (window.take (2 * (window.length / 2))) = .ok decoded ∧
      (base40 α).renderOnto text window =
        if window.length % 2 = 1 then
          (text ++ decoded ++ String.ofList errorMarker, [.inputLength 1 bytesPerUnit])
        else (text ++ decoded, []) := by
  have heven : (window.take (2 * (window.length / 2))).length % bytesPerUnit = 0 := by
    rw [List.length_take, bytesPerUnit]
    omega
  refine ⟨_, if_neg (not_not.mpr heven), ?_⟩
  have hsplit := packedText_eq α window
  rw [renderOnto_eq_reading, reading, hsplit, packedErrors, bytesPerUnit]
  dsimp only
  split
  · next hodd =>
    rw [if_neg (by omega), String.ofList_append, String.append_assoc]
  · next heven => rw [if_pos (by omega), List.append_nil]

/-- The shifted overlay shows nothing of a window that has at most its two ends. -/
theorem renderOnto_base40Odd_of_length_lt (α : Base40.Alphabet) (text : String)
    {window : List UInt8} (h : window.length < 2) :
    (base40Odd α).renderOnto text window = (text, []) :=
  if_pos h

/-- It shows what is between the two ends like the other one. -/
theorem renderOnto_base40Odd (α : Base40.Alphabet) (text : String) (first last : UInt8)
    (middle : List UInt8) :
    (base40Odd α).renderOnto text (first :: (middle ++ [last])) =
      (base40 α).renderOnto text middle := by
  have hlong : ¬(first :: (middle ++ [last])).length < 2 := by
    rw [List.length_cons, List.length_append, List.length_singleton]
    omega
  have hinner : inner (first :: (middle ++ [last])) = middle := List.dropLast_concat
  simp only [renderOnto, if_neg hlong, hinner]

end Overlay

/-- The overlays of a set are given ones. -/
theorem OverlaySet.given_of_mem {s : OverlaySet} {o : Overlay} (h : o ∈ s.toList) : o.Given := by
  rcases cases_of_mem h with rfl | rfl | rfl | rfl <;> exact trivial

/-! ### Lines -/

namespace LineStyle

/-- The number of characters that the overlays of a line take for `n` bytes. -/
def overlaysWidth (style : LineStyle) (n : Nat) : Nat :=
  (style.overlays.map fun o => 2 + o.width n).sum

/-- The given overlays of a line are as wide as the number of bytes requires. -/
theorem length_overlayText {style : LineStyle} (h : ∀ o ∈ style.overlays, o.Given)
    (bytes : List UInt8) : (style.overlayText bytes).length = style.overlaysWidth bytes.length := by
  rw [overlayText, overlaysWidth, List.length_flatMap]
  refine congrArg List.sum (List.map_congr_left fun o ho => ?_)
  rw [List.length_cons, List.length_cons, Overlay.length_render (h o ho)]
  omega

/-- So is the whole line. -/
theorem length_row {style : LineStyle} (h : ∀ o ∈ style.overlays, o.Given) (offset : Nat)
    {blank : List Char} (hblank : blank.length = 2) (cells : List (Option UInt8)) {flags : List Bool}
    (hflags : flags.length = style.capacity) (bytes : List UInt8) :
    (style.row offset blank cells flags bytes).length =
      style.headerWidth offset + (columnsWidth style.capacity + 1) +
        style.overlaysWidth bytes.length := by
  rw [row_eq_append, List.length_append, length_header, List.length_append,
    length_columns_eq style hblank cells hflags, length_overlayText h]
  omega

/-- Styles with given overlays that differ in the alphabets of these only. -/
structure SameKinds (style style' : LineStyle) : Prop where
  given : ∀ o ∈ style.overlays, o.Given
  given' : ∀ o ∈ style'.overlays, o.Given
  capacity_eq : style.capacity = style'.capacity
  offsetWidth_eq : style.offsetWidth = style'.offsetWidth
  names_eq : style.overlays.map Overlay.name = style'.overlays.map Overlay.name

/-- The overlays of such styles are equally wide. -/
theorem SameKinds.overlaysWidth_eq {style style' : LineStyle} (h : style.SameKinds style')
    (n : Nat) : style.overlaysWidth n = style'.overlaysWidth n := by
  have hgiven := h.given
  have hgiven' := h.given'
  have hnames := h.names_eq
  unfold overlaysWidth
  generalize style.overlays = overlays at hnames hgiven ⊢
  generalize style'.overlays = overlays' at hnames hgiven' ⊢
  induction overlays generalizing overlays' with
  | nil =>
    obtain rfl : overlays' = [] := List.map_eq_nil_iff.mp hnames.symm
    rfl
  | cons o overlays ih =>
    cases overlays' with
    | nil => cases hnames
    | cons o' overlays' =>
      obtain ⟨hname, hrest⟩ := List.cons.inj hnames
      obtain ⟨ho, hmore⟩ := List.forall_mem_cons.mp hgiven
      obtain ⟨ho', hmore'⟩ := List.forall_mem_cons.mp hgiven'
      rw [List.map_cons, List.map_cons, List.sum_cons, List.sum_cons,
        Overlay.width_eq_of_name_eq ho ho' hname, ih hmore _ hrest hmore']

end LineStyle

/-- **Packed overlays decode by themselves, and all overlays keep their width.**  Take any alphabet,
any window, and any text that is already there.  The packed overlay adds to the text what the
longest whole number of units in front of the window decodes to, and the mark of an error exactly if
a byte is left over.  The shifted one adds nothing for less than two bytes, and otherwise what the
packed one adds for the window without its first and its last byte.

So a line of any style with these overlays and the two that show a character for each byte is as
long as its offset, its number of positions and the number of bytes require, and two lines at the
same offset, of windows of the same length, are equally long, whatever their bytes, their flags and
the alphabets of their overlays are. -/
theorem overlays_keep_width :
    (∀ (α : Base40.Alphabet) (text : String) (window : List UInt8),
      ∃ decoded, α.decode (window.take (2 * (window.length / 2))) = .ok decoded ∧
        (Overlay.base40 α).renderOnto text window =
          if window.length % 2 = 1 then
            (text ++ decoded ++ "<E>", [.inputLength 1 Base40.bytesPerUnit])
          else (text ++ decoded, [])) ∧
    (∀ (α : Base40.Alphabet) (text : String),
      (∀ window : List UInt8, window.length < 2 →
        (Overlay.base40Odd α).renderOnto text window = (text, [])) ∧
      ∀ (first last : UInt8) (middle : List UInt8),
        (Overlay.base40Odd α).renderOnto text (first :: (middle ++ [last])) =
          (Overlay.base40 α).renderOnto text middle) ∧
    (∀ (style : LineStyle) (text : String) (offset : Nat) (window : List UInt8)
      (flags : List Bool) (after : String),
      (∀ o ∈ style.overlays, o.Given) → flags.length = style.capacity →
        style.lineOnto text offset window flags = .ok after →
          after.length = text.length + (style.headerWidth offset +
            (LineStyle.columnsWidth style.capacity + 1) +
              (style.overlays.map fun o => 2 + o.width window.length).sum)) ∧
    ∀ style style' : LineStyle, style.SameKinds style' →
      ∀ (text : String) (offset : Nat) (window window' : List UInt8) (flags flags' : List Bool)
        (after after' : String),
        window.length = window'.length → flags.length = style.capacity →
          flags'.length = style.capacity →
            style.lineOnto text offset window flags = .ok after →
              style'.lineOnto text offset window' flags' = .ok after' →
                after.length = after'.length := by
  have hline : ∀ (style : LineStyle) (text : String) (offset : Nat) (window : List UInt8)
      (flags : List Bool) (after : String),
      (∀ o ∈ style.overlays, o.Given) → flags.length = style.capacity →
        style.lineOnto text offset window flags = .ok after →
          after.length = text.length + (style.headerWidth offset +
            (LineStyle.columnsWidth style.capacity + 1) +
              style.overlaysWidth window.length) := by
    intro style text offset window flags after hgiven hflags hafter
    obtain ⟨-, rfl⟩ := LineStyle.lineOnto_eq_ok_iff.mp hafter
    rw [String.length_append, String.length_ofList, LineStyle.line,
      LineStyle.length_row hgiven offset LineStyle.length_missingByte _ hflags window]
  refine ⟨Overlay.renderOnto_base40, fun α text => ⟨?_, ?_⟩, hline, ?_⟩
  · exact fun window => Overlay.renderOnto_base40Odd_of_length_lt α text
  · exact Overlay.renderOnto_base40Odd α text
  · intro style style' hkinds text offset window window' flags flags' after after' hwindow hflags
      hflags' hafter hafter'
    have hheader : style.headerWidth offset = style'.headerWidth offset := by
      rw [LineStyle.headerWidth, LineStyle.headerWidth, hkinds.offsetWidth_eq]
    rw [hline style text offset window flags after hkinds.given hflags hafter,
      hline style' text offset window' flags' after' hkinds.given'
        (hflags'.trans hkinds.capacity_eq) hafter',
      hwindow, hheader, hkinds.capacity_eq, hkinds.overlaysWidth_eq]

/-- A byte left over behind a text with a character of two bytes, a window that is too short for the
shifted overlay and one that is not, and two lines with different bytes, flags and alphabets. -/
theorem overlays_keep_width_left_over :
    (Overlay.base40 .standard).renderOnto "é " [0x9F, 0x15, 0x1C] =
        ("é CRO<E>", [.inputLength 1 2]) ∧
      (Overlay.base40Odd .standard).renderOnto "é " [0x9F] = ("é ", []) ∧
      (Overlay.base40Odd .standard).renderOnto "é " [0xFF, 0x9F, 0x15, 0xFF] =
        (Overlay.base40 .standard).renderOnto "é " [0x9F, 0x15] ∧
      ∃ line line',
        LineStyle.lineOnto ⟨4, 4, [.base40 .standard, .ascii]⟩ "" 0 [0x9F, 0x15, 0x1C]
          [false, true, false, true] = .ok line ∧
        LineStyle.lineOnto ⟨4, 4, [.base40 ⟨Vector.replicate 40 '*', []⟩, .ascii]⟩ "" 0 [1, 2, 3]
          [true, true, true, true] = .ok line' ∧
        line.length = 33 ∧ line.length = line'.length := by
  obtain ⟨hpacked, hshifted, hlength, hlines⟩ := overlays_keep_width
  obtain ⟨hshort, hlong⟩ := hshifted .standard "é "
  have hkinds : LineStyle.SameKinds ⟨4, 4, [.base40 .standard, .ascii]⟩
      ⟨4, 4, [.base40 ⟨Vector.replicate 40 '*', []⟩, .ascii]⟩ :=
    ⟨by simp [Overlay.Given], by simp [Overlay.Given], rfl, rfl, rfl⟩
  have hline : ∃ line, LineStyle.lineOnto ⟨4, 4, [.base40 .standard, .ascii]⟩ "" 0
      [0x9F, 0x15, 0x1C] [false, true, false, true] = .ok line :=
    ⟨_, LineStyle.lineOnto_eq_ok_iff.mpr ⟨by decide, rfl⟩⟩
  have hline' : ∃ line, LineStyle.lineOnto ⟨4, 4, [.base40 ⟨Vector.replicate 40 '*', []⟩, .ascii]⟩
      "" 0 [1, 2, 3] [true, true, true, true] = .ok line :=
    ⟨_, LineStyle.lineOnto_eq_ok_iff.mpr ⟨by decide, rfl⟩⟩
  obtain ⟨line, hline⟩ := hline
  obtain ⟨line', hline'⟩ := hline'
  have hcount := hlength _ "" 0 [0x9F, 0x15, 0x1C] [false, true, false, true] line hkinds.given rfl
    hline
  have hsame := hlines _ _ hkinds "" 0 [0x9F, 0x15, 0x1C] [1, 2, 3] [false, true, false, true]
    [true, true, true, true] line line' rfl rfl rfl hline hline'
  refine ⟨?_, hshort _ (by decide), hlong 0xFF 0xFF [0x9F, 0x15], line, line', hline, hline',
    hcount.trans (by decide), hsame⟩
  obtain ⟨decoded, hdecoded, hshown⟩ := hpacked .standard "é " [0x9F, 0x15, 0x1C]
  have hword : Base40.Alphabet.standard.decode [0x9F, 0x15] = .ok "CRO" := by decide +kernel
  obtain rfl := Except.ok.inj (hdecoded.symm.trans hword)
  rw [hshown]
  decide +kernel

end HexDiff
