import HexDiff.Proofs.Delivery
import HexDiff.Proofs.Preconditions

/-!
# Filling, read by read

A window is filled in passes, each of which makes at most one read of the stream into what is still
free of the window.  A read gets some bytes, or none at the end of the stream, or it fails; an
interruption is a failure after which the next pass tries again.

`Source.pass` is one pass, with the bounds of the window checked.  `Source.Passes` says what it does:
it never leaves the window, and what is still to be done after it fills the window in the same way
(`Source.resume`).  A pass after which filling goes on has used up an event or a byte of the stream,
so `Source.work` goes down with it.
-/

namespace HexDiff
namespace Source

/-- One read of up to `room` bytes: what it gets, and what the stream has left. -/
def read (room : Nat) : Source → Except Fault (List UInt8) × Source
  | [] => (.ok [], [])
  | .data bytes :: rest =>
    (.ok (bytes.take room), if bytes.length ≤ room then rest else .data (bytes.drop room) :: rest)
  | .ended :: rest => (.ok [], rest)
  | .failed fault :: rest => (.error fault, rest)

/-- What a pass comes to. -/
inductive Pass where
  /-- Filling goes on: the window, how many of its bytes are filled, and what the stream has left. -/
  | goesOn (buffer : List UInt8) (filled : Nat) (rest : Source)
  /-- The window is full, or a read got nothing. -/
  | done (rest : Source)
  /-- A read failed for good. -/
  | failed (fault : Fault) (rest : Source)

/-- A window with some bytes put into it from position `i` on. -/
def put (buffer : List UInt8) (i : Nat) (bytes : List UInt8) : List UInt8 :=
  buffer.take i ++ bytes ++ buffer.drop (i + bytes.length)

/-- What becomes of filling a window of which so many bytes are filled by what a read gets. -/
def afterRead (buffer : List UInt8) (filled : Nat) : Except Fault (List UInt8) × Source → Pass
  | (.ok bytes, rest) =>
    if bytes = [] then .done rest
    else .goesOn (put buffer filled bytes) (filled + bytes.length) rest
  | (.error fault, rest) =>
    if fault.kind = .interrupted then .goesOn buffer filled rest else .failed fault rest

/-- One pass of filling a window of which so many bytes are filled. -/
def pass (source : Source) (buffer : List UInt8) (filled : Nat) : Except Breach Pass :=
  if buffer.length ≤ filled then .ok (.done source)
  else do
    let free ← Checked.slice buffer filled buffer.length
    return afterRead buffer filled (source.read free.length)

/-- The events and the bytes that a stream has left. -/
def work (source : Source) : Nat :=
  source.length + source.byteCount

/-- The whole rest of filling a window of which so many bytes are filled. -/
def resume (source : Source) (buffer : List UInt8) (filled : Nat) : BlockRead :=
  let filling := fill (buffer.length - filled) source
  ⟨put buffer filled filling.taken, filled + filling.taken.length, filling.fault, filling.rest⟩

/-- From the beginning, this is a block read. -/
theorem resume_zero (source : Source) (buffer : List UInt8) :
    source.resume buffer 0 = source.readBlock buffer := by
  rw [resume, readBlock, put, Nat.sub_zero, List.take_zero, List.nil_append, Nat.zero_add]

/-! ### Putting bytes into a window -/

section Put

variable {buffer bytes : List UInt8} {i : Nat}

/-- A window into which nothing is put stays as it is. -/
theorem put_nil (buffer : List UInt8) (i : Nat) : put buffer i [] = buffer := by
  rw [put, List.append_nil, List.length_nil, Nat.add_zero, List.take_append_drop]

/-- Bytes for which there is room leave a window as long as it is. -/
theorem length_put (hfit : i + bytes.length ≤ buffer.length) :
    (put buffer i bytes).length = buffer.length := by
  simp only [put, List.length_append, List.length_take, List.length_drop]
  omega

/-- Bytes that are put behind others might have been put together with them. -/
theorem put_put (hfit : i + bytes.length ≤ buffer.length) (more : List UInt8) :
    put (put buffer i bytes) (i + bytes.length) more = put buffer i (bytes ++ more) := by
  have hfront : (buffer.take i ++ bytes).length = i + bytes.length := by
    rw [List.length_append, List.length_take, Nat.min_eq_left (by omega)]
  rw [put, put, put, ← hfront, List.take_left, List.drop_length_add_append, hfront, List.drop_drop,
    List.length_append, Nat.add_assoc, List.append_assoc _ bytes]

end Put

/-! ### What a read does to filling -/

/-- A pass of filling, by what it comes to. -/
inductive Passes (source : Source) (buffer : List UInt8) (filled : Nat) : Pass → Prop
  | goesOn {buffer' : List UInt8} {filled' : Nat} {rest : Source}
    (hlength : buffer'.length = buffer.length) (hfilled : filled' ≤ buffer.length)
    (hbytes : filled' + rest.byteCount = filled + source.byteCount)
    (hwork : rest.work < source.work)
    (hresume : source.resume buffer filled = rest.resume buffer' filled') :
    Passes source buffer filled (.goesOn buffer' filled' rest)
  | done {rest : Source} (hbytes : rest.byteCount = source.byteCount)
    (hwork : rest.work ≤ source.work)
    (hresume : source.resume buffer filled = ⟨buffer, filled, none, rest⟩) :
    Passes source buffer filled (.done rest)
  | failed {fault : Fault} {rest : Source}
    (hresume : source.resume buffer filled = ⟨buffer, filled, some fault, rest⟩) :
    Passes source buffer filled (.failed fault rest)

variable {source rest : Source} {buffer bytes : List UInt8} {filled : Nat}

/-- Where nothing more is taken, the window stays as it is. -/
theorem resume_of_fill {fault : Option Fault}
    (h : source.fill (buffer.length - filled) = ⟨[], fault, rest⟩) :
    source.resume buffer filled = ⟨buffer, filled, fault, rest⟩ := by
  rw [resume, h, put_nil]
  rfl

/-- Bytes that are taken first are put into the window first. -/
theorem resume_of_fill_append (hfit : filled + bytes.length ≤ buffer.length) {more : Filling}
    (h : source.fill (buffer.length - filled) = ⟨bytes ++ more.taken, more.fault, more.rest⟩)
    (hmore : rest.fill (buffer.length - (filled + bytes.length)) = more) :
    source.resume buffer filled =
      rest.resume (put buffer filled bytes) (filled + bytes.length) := by
  rw [resume, resume, h, length_put hfit, hmore, put_put hfit, List.length_append, Nat.add_assoc]

/-- Data is read up to the end of what is free, and the rest of it is filled from later. -/
theorem fill_data (hbytes : bytes ≠ []) (room : Nat) (rest : Source) :
    let left := if bytes.length ≤ room then rest else .data (bytes.drop room) :: rest
    let more := fill (room - (bytes.take room).length) left
    fill room (.data bytes :: rest) = ⟨bytes.take room ++ more.taken, more.fault, more.rest⟩ := by
  dsimp only
  by_cases hle : bytes.length ≤ room
  · rw [if_pos hle, List.take_of_length_le hle, fill_data_of_le hbytes hle]
  · rw [if_neg hle, fill_data_of_lt (Nat.not_le.mp hle),
      List.length_take_of_le (Nat.not_le.mp hle).le, Nat.sub_self, fill, List.append_nil]

/-- A read of some data with room for a byte of it uses some of it up. -/
theorem work_read_data (hbytes : bytes ≠ []) {room : Nat} (hroom : 0 < room) (rest : Source) :
    let left : Source := if bytes.length ≤ room then rest else .data (bytes.drop room) :: rest
    (bytes.take room).length + left.byteCount = byteCount (.data bytes :: rest) ∧
      left.work < work (.data bytes :: rest) := by
  have hpos : 0 < bytes.length := List.length_pos_iff.mpr hbytes
  dsimp only
  split
  · next hle =>
    rw [List.take_of_length_le hle, work, work, byteCount, List.length_cons]
    exact ⟨rfl, by omega⟩
  · next hlong =>
    simp only [work, byteCount, List.length_cons, List.length_take, List.length_drop]
    omega

/-- A pass that reads data. -/
theorem passes_data (hbytes : bytes ≠ []) (hroom : filled < buffer.length) (rest : Source) :
    Passes (.data bytes :: rest) buffer filled
      (afterRead buffer filled (read (buffer.length - filled) (.data bytes :: rest))) := by
  have hpos : 0 < buffer.length - filled := Nat.sub_pos_of_lt hroom
  have htaken : bytes.take (buffer.length - filled) ≠ [] := by
    rw [ne_eq, List.take_eq_nil_iff, not_or]
    exact ⟨hpos.ne', hbytes⟩
  have hfit : filled + (bytes.take (buffer.length - filled)).length ≤ buffer.length := by
    rw [List.length_take]
    omega
  have hfill := fill_data hbytes (buffer.length - filled) rest
  obtain ⟨hcount, hwork⟩ := work_read_data hbytes hpos rest
  rw [read, afterRead, if_neg htaken]
  dsimp only at hfill hcount hwork ⊢
  generalize (if bytes.length ≤ buffer.length - filled then rest
    else Event.data (bytes.drop (buffer.length - filled)) :: rest) = left at *
  rw [Nat.sub_sub] at hfill
  refine .goesOn (length_put hfit) hfit ?_ hwork (resume_of_fill_append hfit hfill rfl)
  rw [Nat.add_assoc, hcount]

/-- A pass whose read fails. -/
theorem passes_failed (fault : Fault) (hroom : filled < buffer.length) (rest : Source) :
    Passes (.failed fault :: rest) buffer filled
      (afterRead buffer filled (read (buffer.length - filled) (.failed fault :: rest))) := by
  obtain ⟨room, hsucc⟩ := Nat.exists_eq_add_of_le' (Nat.sub_pos_of_lt hroom)
  have hcount : byteCount (.failed fault :: rest) = rest.byteCount := rfl
  rw [read, afterRead]
  by_cases hkind : fault.kind = .interrupted
  · rw [if_pos hkind]
    refine .goesOn rfl hroom.le (by rw [hcount]) ?_ ?_
    · rw [work, work, hcount, List.length_cons]
      omega
    · rw [resume, resume, hsucc, fill, if_pos hkind]
  · rw [if_neg hkind]
    exact .failed (resume_of_fill (by rw [hsucc, fill, if_neg hkind]))

/-- A pass whose read gets nothing. -/
theorem passes_empty (event : Event) (hcount : byteCount (event :: rest) = rest.byteCount)
    (hfill : fill (buffer.length - filled) (event :: rest) = ⟨[], none, rest⟩) :
    Passes (event :: rest) buffer filled (.done rest) := by
  refine .done hcount.symm ?_ (resume_of_fill hfill)
  rw [work, work, hcount, List.length_cons]
  omega

/-- **One pass.**  A pass of filling a window stays inside of it, and filling is the pass and what is
still to be done after it. -/
theorem exists_pass_eq (source : Source) (hfilled : filled ≤ buffer.length) :
    ∃ p, source.pass buffer filled = .ok p ∧ Passes source buffer filled p := by
  unfold pass
  rcases Nat.eq_or_lt_of_le hfilled with rfl | hroom
  · refine ⟨.done source, if_pos le_rfl, .done rfl le_rfl (resume_of_fill ?_)⟩
    rw [Nat.sub_self, fill]
  · have hfree : ((buffer.take buffer.length).drop filled).length = buffer.length - filled := by
      rw [List.length_drop, List.length_take_of_le le_rfl]
    obtain ⟨room, hsucc⟩ := Nat.exists_eq_add_of_le' (Nat.sub_pos_of_lt hroom)
    rw [if_neg (Nat.not_le.mpr hroom), Checked.slice_of_le hfilled le_rfl, ok_bind, hfree]
    refine ⟨_, rfl, ?_⟩
    cases source with
    | nil => exact .done rfl le_rfl (resume_of_fill (by rw [hsucc, fill]))
    | cons event rest =>
      cases event with
      | data bytes =>
        by_cases hbytes : bytes = []
        · subst hbytes
          rw [read, List.take_nil]
          exact passes_empty (.data []) (Nat.zero_add _) (by rw [hsucc, fill])
        · exact passes_data hbytes hroom rest
      | ended => exact passes_empty .ended rfl (by rw [hsucc, fill])
      | failed fault => exact passes_failed fault hroom rest

end Source
end HexDiff
