import Mathlib.Data.List.Basic
import HexDiff.Stream.Source

/-!
# What a stream delivers

A stream cuts what it delivers wherever it likes, and reads may be interrupted between the pieces.
`Source.Delivers` leaves the cuts and the interruptions out of account: it relates a stream to the
bytes that come from it one after the other, and to what comes after the last of them, the end or a
fault.

The main statement is `Source.fill_of_delivers`: a window filled from a stream gets the first of
these bytes, and the stream then delivers the others.  So two streams that deliver the same bytes
fill the same windows.  A stream made of data and interruptions delivers its data, and nothing else
about it counts (`Source.delivers_data`).
-/

namespace HexDiff

/-! ### Streams without faults and early ends -/

/-- What may happen in the middle of a stream that goes on: some data, or an interruption. -/
def Event.GoesOn : Event → Prop
  | .data bytes => bytes ≠ []
  | .ended => False
  | .failed fault => fault.kind = .interrupted

/-- The bytes of an event. -/
def Event.bytes : Event → List UInt8
  | .data bytes => bytes
  | _ => []

namespace Source

/-- All data of a stream. -/
def data (source : Source) : List UInt8 :=
  source.flatMap Event.bytes

/-- Reading a stream to the end delivers `bytes`, and then the stream has ended or, if `stop` is a
fault, reports it.  After a fault anything may follow. -/
inductive Delivers : Source → List UInt8 → Option Fault → Prop
  | nothing : Delivers [] [] none
  | empty : Delivers [.data []] [] none
  | stopped {fault : Fault} {rest : Source} (h : fault.kind ≠ .interrupted) :
    Delivers (.failed fault :: rest) [] (some fault)
  | piece {bytes more : List UInt8} {rest : Source} {stop : Option Fault} (h : bytes ≠ [])
    (hrest : Delivers rest more stop) : Delivers (.data bytes :: rest) (bytes ++ more) stop
  | interrupted {fault : Fault} {bytes : List UInt8} {rest : Source} {stop : Option Fault}
    (h : fault.kind = .interrupted) (hrest : Delivers rest bytes stop) :
    Delivers (.failed fault :: rest) bytes stop

/-- A stream made from some bytes delivers them. -/
theorem delivers_ofBytes (bytes : List UInt8) : (ofBytes bytes).Delivers bytes none := by
  by_cases h : bytes = []
  · subst h
    exact .empty
  · simpa [ofBytes] using Delivers.piece h .nothing

/-- So does a stream made from them in pieces. -/
theorem delivers_inPieces (size : Nat) (bytes : List UInt8) :
    (inPieces size bytes).Delivers bytes none := by
  fun_induction inPieces size bytes with
  | case1 => exact .nothing
  | case2 b rest ih =>
    have hpiece : b :: rest.take (size - 1) ≠ [] := List.cons_ne_nil _ _
    have hall := Delivers.piece hpiece ih
    rwa [List.cons_append, List.take_append_drop] at hall

/-- A stream that goes on delivers its data, and then what is behind it. -/
theorem delivers_append {source tail : Source} {bytes : List UInt8} {stop : Option Fault}
    (h : ∀ event ∈ source, event.GoesOn) (htail : tail.Delivers bytes stop) :
    (source ++ tail).Delivers (source.data ++ bytes) stop := by
  induction source with
  | nil => exact htail
  | cons event rest ih =>
    have hevent : event.GoesOn := h event (by simp)
    have hrest : Delivers (rest ++ tail) (data rest ++ bytes) stop :=
      ih fun e he => h e (by simp [he])
    cases event with
    | data piece =>
      have hpiece : Delivers (.data piece :: (rest ++ tail)) (piece ++ (data rest ++ bytes)) stop :=
        .piece hevent hrest
      rwa [← List.append_assoc] at hpiece
    | ended => exact hevent.elim
    | failed fault => exact .interrupted hevent hrest

/-- A stream that goes on up to its end delivers its data. -/
theorem delivers_data {source : Source} (h : ∀ event ∈ source, event.GoesOn) :
    source.Delivers source.data none := by
  simpa only [List.append_nil] using delivers_append h .nothing

/-! ### Filling -/

/-- Taking no more than there is room for. -/
theorem length_taken_fill_le (room : Nat) (source : Source) :
    (fill room source).taken.length ≤ room := by
  fun_induction fill room source with
  | case1 => simp
  | case2 => simp
  | case3 => simp
  | case4 room b bytes rest h more ih =>
    have hbytes : bytes.length ≤ room := List.drop_eq_nil_iff.mp h
    simp only [more, List.length_append, List.length_cons]
    omega
  | case5 room b bytes rest h =>
    simp only [List.length_cons, List.length_take]
    omega
  | case6 => simp
  | case7 room fault rest h ih => exact ih
  | case8 => simp

/-- All data of a stream is either taken or left. -/
theorem data_fill (room : Nat) (source : Source) :
    (fill room source).taken ++ (fill room source).rest.data = source.data := by
  fun_induction fill room source with
  | case1 => rfl
  | case2 => rfl
  | case3 => rfl
  | case4 room b bytes rest h more ih =>
    rw [List.append_assoc, ih]
    rfl
  | case5 room b bytes rest h =>
    simp only [data, List.flatMap_cons, Event.bytes, List.cons_append, ← List.append_assoc,
      List.take_append_drop]
  | case6 => rfl
  | case7 room fault rest h ih => exact ih
  | case8 => rfl

/-- What is taken is what the reads get, one after the other. -/
theorem flatten_reads (room : Nat) (source : Source) :
    (source.reads room).flatten = (fill room source).taken := by
  fun_induction fill room source with
  | case1 => rw [reads, List.flatten_nil]
  | case2 => rfl
  | case3 => rfl
  | case4 room b bytes rest h more ih =>
    have hbytes : bytes.length ≤ room := List.drop_eq_nil_iff.mp h
    rw [reads, List.flatten_cons, ih, List.take_of_length_le hbytes]
  | case5 room b bytes rest h =>
    -- the first read fills up the room
    have hlong : ¬bytes.length ≤ room := fun hle => h (List.drop_eq_nil_of_le hle)
    have hroom : room - bytes.length = 0 := by omega
    rw [reads, hroom, reads, List.flatten_cons, List.flatten_nil, List.append_nil]
  | case6 => rfl
  | case7 room fault rest h ih => rw [reads, if_pos h, ih]
  | case8 room fault rest h =>
    rw [reads, if_neg h]
    rfl

/-- A piece of data for which there is room is taken as a whole, and filling goes on behind it. -/
theorem fill_data_of_le {room : Nat} {bytes : List UInt8} (hne : bytes ≠ [])
    (hle : bytes.length ≤ room) (rest : Source) :
    fill room (.data bytes :: rest) =
      ⟨bytes ++ (fill (room - bytes.length) rest).taken, (fill (room - bytes.length) rest).fault,
        (fill (room - bytes.length) rest).rest⟩ := by
  obtain ⟨b, bytes, rfl⟩ := List.exists_cons_of_ne_nil hne
  rw [List.length_cons] at hle
  obtain ⟨room, rfl⟩ := Nat.exists_eq_add_of_le' (Nat.one_le_of_lt hle)
  have hdrop : bytes.drop room = [] := List.drop_eq_nil_of_le (Nat.le_of_succ_le_succ hle)
  rw [fill, hdrop, List.length_cons, Nat.add_sub_add_right]

/-- A piece of data that is longer than the room is cut, and the stream keeps the rest of it. -/
theorem fill_data_of_lt {room : Nat} {bytes : List UInt8} (hlt : room < bytes.length)
    (rest : Source) :
    fill room (.data bytes :: rest) =
      ⟨bytes.take room, none, .data (bytes.drop room) :: rest⟩ := by
  cases room with
  | zero => rw [fill, List.take_zero, List.drop_zero]
  | succ room =>
    obtain ⟨b, bytes, rfl⟩ := List.exists_cons_of_length_pos (Nat.zero_lt_of_lt hlt)
    have hdrop : bytes.drop room ≠ [] := by
      rw [List.length_cons] at hlt
      rw [ne_eq, List.drop_eq_nil_iff]
      omega
    rw [fill]
    split
    · next hnil => exact absurd hnil hdrop
    · rfl

/-- A window takes the first bytes that its stream delivers.  What comes after the last byte is
noticed only if there is still room for another one; otherwise the stream keeps it for later,
together with the bytes that were not taken. -/
theorem fill_of_delivers {source : Source} {bytes : List UInt8} {stop : Option Fault}
    (h : source.Delivers bytes stop) (room : Nat) :
    (fill room source).taken = bytes.take room ∧
      (fill room source).fault = (if bytes.length < room then stop else none) ∧
      (room ≤ bytes.length ∨ stop = none →
        (fill room source).rest.Delivers (bytes.drop room) stop) := by
  induction h generalizing room with
  | nothing => cases room <;> simp [fill, Delivers.nothing]
  | empty =>
    cases room with
    | zero => simp [fill, Delivers.empty]
    | succ room => simp [fill, Delivers.nothing]
  | stopped hkind =>
    cases room with
    | zero => simp [fill, Delivers.stopped hkind]
    | succ room => simp [fill, hkind]
  | @piece bytes more rest stop hbytes hrest ih =>
    rcases Nat.lt_or_ge room bytes.length with hlt | hle
    · -- the piece is cut, and filling ends here
      have hlength : ¬(bytes ++ more).length < room := by
        rw [List.length_append]
        omega
      have hdrop : bytes.drop room ≠ [] := by
        rw [ne_eq, List.drop_eq_nil_iff]
        omega
      rw [fill_data_of_lt hlt]
      refine ⟨?_, ?_, fun _ => ?_⟩
      · rw [List.take_append_of_le_length (Nat.le_of_lt hlt)]
      · rw [if_neg hlength]
      · rw [List.drop_append_of_le_length (Nat.le_of_lt hlt)]
        exact .piece hdrop hrest
    · -- the whole piece is taken, and filling goes on with less room
      obtain ⟨htaken, hfault, hmore⟩ := ih (room - bytes.length)
      have hlength : (bytes ++ more).length < room ↔ more.length < room - bytes.length := by
        rw [List.length_append]
        omega
      rw [fill_data_of_le hbytes hle]
      refine ⟨?_, ?_, fun hroom => ?_⟩
      · rw [htaken, List.take_append, List.take_of_length_le hle]
      · rw [hfault]
        simp only [hlength]
      · rw [List.drop_append, List.drop_eq_nil_of_le hle, List.nil_append]
        refine hmore (hroom.imp_left fun hle' => ?_)
        rw [List.length_append] at hle'
        omega
  | @interrupted fault bytes rest stop hkind hrest ih =>
    cases room with
    | zero => simpa [fill] using Delivers.interrupted hkind hrest
    | succ room => simpa only [fill, hkind, if_true] using ih (room + 1)

end Source
end HexDiff
