import HexDiff.Proofs.Delivery

/-!
# Block reads one after the other

Block reads that follow each other share out the stream they read from.  Each of them passes over a
stretch at the front of what the read before it has left, and the bytes of this stretch are what it
brings.  Data and interruptions are all that it can get over: an empty read, a fault, or a full
buffer ends it.

`Source.Fills` tells these endings apart, together with where exactly the stream is then.  At a full
buffer the stream may be in the middle of a piece of data, which `Source.Cut` allows for, but never
past an event that the buffer has no room for.  So nothing between two reads is lost
(`Source.readBlocks_share_out`): the data comes in order, and a fault that one read does not report
is left for the next one.
-/

namespace HexDiff

/-- An event that a read gets nothing from although it does not fail. -/
def Event.ReadsEmpty : Event → Prop
  | .data bytes => bytes = []
  | .ended => True
  | .failed _ => False

namespace Source

/-- A stream is cut in two, between two events or inside a piece of data. -/
inductive Cut : Source → Source → Source → Prop
  | between (front back : Source) : Cut (front ++ back) front back
  | inside {head tail : List UInt8} (front back : Source) (hhead : head ≠ []) (htail : tail ≠ []) :
    Cut (front ++ .data (head ++ tail) :: back) (front ++ [.data head]) (.data tail :: back)

/-! ### How filling ends -/

/-- The endings of filling.  What is taken comes from a stretch of data and interruptions at the
front of the stream.  Either it has as much data as there is room for, and none of the events behind
the last piece of data; or it is followed by an empty read, by no event at all, or by a fault. -/
inductive Fills (room : Nat) (source : Source) : Filling → Prop
  | full {front back : Source} (hcut : Cut source front back)
    (hfront : ∀ event ∈ front, event.GoesOn) (hroom : front.data.length = room)
    (hlast : ∀ init event, front = init ++ [event] → event.bytes ≠ []) :
    Fills room source ⟨front.data, none, back⟩
  | short {front back : Source} {event : Event} (hsource : source = front ++ event :: back)
    (hevent : event.ReadsEmpty) (hfront : ∀ event ∈ front, event.GoesOn)
    (hroom : front.data.length < room) : Fills room source ⟨front.data, none, back⟩
  | usedUp (hsource : ∀ event ∈ source, event.GoesOn) (hroom : source.data.length < room) :
    Fills room source ⟨source.data, none, []⟩
  | failed {front back : Source} {fault : Fault} (hsource : source = front ++ .failed fault :: back)
    (hfault : fault.kind ≠ .interrupted) (hfront : ∀ event ∈ front, event.GoesOn)
    (hroom : front.data.length < room) : Fills room source ⟨front.data, some fault, back⟩

variable {room : Nat} {source front back : Source}

/-- The cut stays where it is if something is put before the stream. -/
theorem Cut.cons (h : Cut source front back) (event : Event) :
    Cut (event :: source) (event :: front) back := by
  cases h with
  | between => exact .between (event :: front) back
  | inside front back hhead htail => exact .inside (event :: front) back hhead htail

/-- Filling goes on behind some data or an interruption. -/
theorem Fills.cons {filling : Filling} (h : Fills room source filling) (event : Event)
    (hevent : event.GoesOn) (hroom : event.bytes ≠ [] ∨ 0 < room) :
    Fills (event.bytes.length + room) (event :: source)
      ⟨event.bytes ++ filling.taken, filling.fault, filling.rest⟩ := by
  have hcons : ∀ {front : Source}, (∀ event ∈ front, event.GoesOn) →
      ∀ e ∈ event :: front, e.GoesOn := fun hfront => List.forall_mem_cons.mpr ⟨hevent, hfront⟩
  have hlength : ∀ front : Source,
      (data (event :: front)).length = event.bytes.length + front.data.length :=
    fun front => List.length_append
  cases h with
  | @full front back hcut hfront hfull hlast =>
    refine .full (hcut.cons event) (hcons hfront) (by rw [hlength, hfull]) ?_
    intro init last heq
    cases init with
    | nil =>
      -- nothing more was asked for behind this event, so it has to be data itself
      obtain ⟨rfl, rfl⟩ := List.cons_eq_cons.mp heq
      have hzero : ¬0 < room := by
        rw [← hfull]
        exact Nat.lt_irrefl 0
      exact hroom.resolve_right hzero
    | cons first init => exact hlast init last (List.cons_eq_cons.mp heq).2
  | short hsource hempty hfront hshort =>
    refine .short (congrArg (event :: ·) hsource) hempty (hcons hfront) ?_
    rw [hlength]
    omega
  | usedUp hsource hshort =>
    refine .usedUp (hcons hsource) ?_
    rw [hlength]
    omega
  | failed hsource hfault hfront hshort =>
    refine .failed (congrArg (event :: ·) hsource) hfault (hcons hfront) ?_
    rw [hlength]
    omega

/-- Nothing is filled where there is no room. -/
theorem fills_zero (source : Source) : Fills 0 source (fill 0 source) := by
  rw [fill]
  exact .full (.between [] source) (List.forall_mem_nil _) rfl (by simp)

/-- Nothing is filled if the first read comes back empty. -/
theorem fills_of_readsEmpty (event : Event) (hevent : event.ReadsEmpty) (hroom : 0 < room)
    (rest : Source) : Fills room (event :: rest) ⟨[], none, rest⟩ :=
  have hsource : event :: rest = [] ++ event :: rest := rfl
  .short hsource hevent (List.forall_mem_nil _) hroom

/-- A piece of data is cut where the room ends. -/
theorem fills_cut_piece {bytes : List UInt8} (hroom : 0 < room) (hlt : room < bytes.length)
    (rest : Source) :
    Fills room (.data bytes :: rest) ⟨bytes.take room, none, .data (bytes.drop room) :: rest⟩ := by
  have hhead : bytes.take room ≠ [] := by
    rw [ne_eq, List.take_eq_nil_iff, not_or]
    exact ⟨Nat.ne_of_gt hroom, List.ne_nil_of_length_pos (Nat.zero_lt_of_lt hlt)⟩
  have htail : bytes.drop room ≠ [] := by
    rw [ne_eq, List.drop_eq_nil_iff]
    exact Nat.not_le.mpr hlt
  have hcut := Cut.inside [] rest hhead htail
  have hdata : data ([] ++ [.data (bytes.take room)]) = bytes.take room := List.append_nil _
  rw [List.take_append_drop] at hcut
  rw [← hdata]
  refine .full hcut (List.forall_mem_singleton.mpr hhead) ?_ ?_
  · rw [hdata, List.length_take_of_le (Nat.le_of_lt hlt)]
  · intro init event heq
    cases init with
    | nil =>
      obtain ⟨rfl, -⟩ := List.cons_eq_cons.mp heq
      exact hhead
    | cons first init => simp at heq

/-- Filling always ends in one of these ways. -/
theorem fills_fill (room : Nat) (source : Source) : Fills room source (fill room source) := by
  induction source generalizing room with
  | nil =>
    cases room with
    | zero => exact fills_zero []
    | succ room => exact .usedUp (List.forall_mem_nil _) (Nat.succ_pos room)
  | cons event source ih =>
    cases room with
    | zero => exact fills_zero (event :: source)
    | succ room =>
      cases event with
      | data bytes =>
        by_cases hbytes : bytes = []
        · subst hbytes
          exact fills_of_readsEmpty (.data []) rfl (Nat.succ_pos room) source
        · rcases Nat.lt_or_ge (room + 1) bytes.length with hlt | hle
          · rw [fill_data_of_lt hlt]
            exact fills_cut_piece (Nat.succ_pos room) hlt source
          · have hmore := (ih (room + 1 - bytes.length)).cons (.data bytes) hbytes
              (Or.inl hbytes)
            rw [fill_data_of_le hbytes hle]
            rwa [Event.bytes, Nat.add_sub_cancel' hle] at hmore
      | ended =>
        exact fills_of_readsEmpty .ended trivial (Nat.succ_pos room) source
      | failed fault =>
        by_cases hfault : fault.kind = .interrupted
        · have hmore : Fills (0 + (room + 1)) (.failed fault :: source) (fill (room + 1) source) :=
            (ih (room + 1)).cons (.failed fault) hfault (Or.inr (Nat.succ_pos room))
          have hfill : fill (room + 1) (.failed fault :: source) = fill (room + 1) source := by
            rw [fill, if_pos hfault]
          rw [hfill]
          rwa [Nat.zero_add] at hmore
        · have hfill : fill (room + 1) (.failed fault :: source) = ⟨[], some fault, source⟩ := by
            rw [fill, if_neg hfault]
          rw [hfill]
          exact .failed rfl hfault (List.forall_mem_nil _) (Nat.succ_pos room)

/-- Filling that comes to the end of the room. -/
theorem Fills.exists_of_full {filling : Filling} (h : Fills room source filling)
    (hfault : filling.fault = none) (hlength : filling.taken.length = room) :
    ∃ front, Cut source front filling.rest ∧ (∀ event ∈ front, event.GoesOn) ∧
      filling.taken = front.data ∧ ∀ init event, front = init ++ [event] → event.bytes ≠ [] := by
  cases h with
  | full hcut hfront hroom hlast => exact ⟨_, hcut, hfront, rfl, hlast⟩
  | short hsource hevent hfront hroom => exact absurd hlength (Nat.ne_of_lt hroom)
  | usedUp hsource hroom => exact absurd hlength (Nat.ne_of_lt hroom)
  | failed => cases hfault

/-- Filling that ends before, and without a fault. -/
theorem Fills.exists_of_short {filling : Filling} (h : Fills room source filling)
    (hfault : filling.fault = none) (hlength : filling.taken.length < room) :
    ∃ front, (∀ event ∈ front, event.GoesOn) ∧ filling.taken = front.data ∧
      ((∃ event, event.ReadsEmpty ∧ source = front ++ event :: filling.rest) ∨
        source = front ∧ filling.rest = []) := by
  cases h with
  | full hcut hfront hroom => exact absurd hroom (Nat.ne_of_lt hlength)
  | short hsource hevent hfront => exact ⟨_, hfront, rfl, Or.inl ⟨_, hevent, hsource⟩⟩
  | usedUp hsource => exact ⟨source, hsource, rfl, Or.inr ⟨rfl, rfl⟩⟩
  | failed => cases hfault

/-- Filling that ends at a fault. -/
theorem Fills.exists_of_fault {filling : Filling} (h : Fills room source filling) {fault : Fault}
    (hfault : filling.fault = some fault) :
    fault.kind ≠ .interrupted ∧ ∃ front, (∀ event ∈ front, event.GoesOn) ∧
      filling.taken = front.data ∧ source = front ++ .failed fault :: filling.rest := by
  cases h with
  | full => cases hfault
  | short => cases hfault
  | usedUp => cases hfault
  | failed hsource hkind hfront =>
    obtain rfl := Option.some.inj hfault
    exact ⟨hkind, _, hfront, rfl, hsource⟩

/-- A read comes back empty exactly if filling ends early and without a fault. -/
theorem nil_mem_reads_iff (room : Nat) (source : Source) :
    [] ∈ source.reads room ↔
      (fill room source).fault = none ∧ (fill room source).taken.length < room := by
  fun_induction fill room source with
  | case1 source => simp [reads]
  | case2 => simp [reads]
  | case3 => simp [reads]
  | case4 room b bytes rest h more ih =>
    have hbytes : bytes.length ≤ room := List.drop_eq_nil_iff.mp h
    have hlength : more.taken.length < room - bytes.length ↔
        (b :: bytes ++ more.taken).length < room + 1 := by
      rw [List.length_append, List.length_cons]
      omega
    rw [reads, List.mem_cons, ih, hlength]
    exact or_iff_right (List.cons_ne_nil _ _).symm
  | case5 room b bytes rest h =>
    -- the first read fills up the room
    have hlong : ¬bytes.length ≤ room := fun hle => h (List.drop_eq_nil_of_le hle)
    have hroom : room - bytes.length = 0 := by omega
    have hfull : ¬(b :: bytes.take room).length < room + 1 := by
      rw [List.length_cons, List.length_take]
      omega
    rw [reads, hroom, reads, List.mem_singleton]
    exact iff_of_false (List.cons_ne_nil _ _).symm fun h => hfull h.2
  | case6 => simp [reads]
  | case7 room fault rest h ih => rw [reads, if_pos h, ih]
  | case8 room fault rest h => simp [reads, h]

/-! ### One block read -/

/-- The bytes that a block read has put in front of the buffer. -/
def BlockRead.taken (read : BlockRead) : List UInt8 :=
  read.buffer.take read.filled

/-- These are the bytes taken from the stream. -/
theorem taken_readBlock (source : Source) (buffer : List UInt8) :
    (source.readBlock buffer).taken = (source.fill buffer.length).taken :=
  List.take_left' rfl

/-- What a block read does with its buffer and with what the stream had left before it. -/
structure Served (before : Source) (buffer : List UInt8) (read : BlockRead) : Prop where
  /-- Only the front of the buffer is written. -/
  front_written : read.filled ≤ buffer.length ∧
    read.buffer = read.taken ++ buffer.drop read.filled
  /-- Nothing happens to the stream if the buffer has no room. -/
  no_room : buffer = [] → read.filled = 0 ∧ read.fault = none ∧ read.rest = before
  /-- A read that fills the buffer has passed over data and interruptions, and over nothing behind
  its last byte. -/
  full : read.fault = none → read.filled = buffer.length →
    ∃ front, Cut before front read.rest ∧ (∀ event ∈ front, event.GoesOn) ∧
      read.taken = front.data ∧ ∀ init event, front = init ++ [event] → event.bytes ≠ []
  /-- A read is short if one of its reads from the stream came back empty. -/
  empty_read : [] ∈ before.reads buffer.length ↔ read.fault = none ∧ read.filled < buffer.length
  /-- A short read has passed over data and interruptions up to where the stream had nothing, and
  over that. -/
  short : read.fault = none → read.filled < buffer.length →
    ∃ front, (∀ event ∈ front, event.GoesOn) ∧ read.taken = front.data ∧
      ((∃ event, event.ReadsEmpty ∧ before = front ++ event :: read.rest) ∨
        before = front ∧ read.rest = [])
  /-- A read that fails reports the first fault that is no interruption.  It has put the data before
  the fault in front of the buffer, and the stream goes on behind the fault. -/
  failed : ∀ fault, read.fault = some fault → fault.kind ≠ .interrupted ∧
    ∃ front, (∀ event ∈ front, event.GoesOn) ∧ read.taken = front.data ∧
      before = front ++ .failed fault :: read.rest

/-- Every block read does so. -/
theorem served_readBlock (source : Source) (buffer : List UInt8) :
    source.Served buffer (source.readBlock buffer) where
  front_written := by
    rw [taken_readBlock]
    exact ⟨length_taken_fill_le buffer.length source, rfl⟩
  no_room := by
    rintro rfl
    have hfill : source.fill 0 = ⟨[], none, source⟩ := by rw [fill]
    simp only [readBlock, List.length_nil, hfill, and_self]
  full := by
    rw [taken_readBlock]
    exact (fills_fill buffer.length source).exists_of_full
  empty_read := nil_mem_reads_iff buffer.length source
  short := by
    rw [taken_readBlock]
    exact (fills_fill buffer.length source).exists_of_short
  failed := by
    rw [taken_readBlock]
    exact fun fault => (fills_fill buffer.length source).exists_of_fault

/-! ### Block reads one after the other -/

/-- Block reads from one stream, each into a buffer of its own. -/
def readBlocks (source : Source) : List (List UInt8) → List BlockRead
  | [] => []
  | buffer :: buffers =>
    source.readBlock buffer :: readBlocks (source.readBlock buffer).rest buffers

/-- What a stream has left after some block reads. -/
def leftAfter (source : Source) (buffers : List (List UInt8)) : Source :=
  buffers.foldl (fun left buffer => (left.readBlock buffer).rest) source

/-- All data of a stream is either brought by the block reads or left by them. -/
theorem flatMap_taken_readBlocks (source : Source) (buffers : List (List UInt8)) :
    (source.readBlocks buffers).flatMap BlockRead.taken ++ (source.leftAfter buffers).data =
      source.data := by
  induction buffers generalizing source with
  | nil => rfl
  | cons buffer buffers ih =>
    rw [readBlocks, List.flatMap_cons, List.append_assoc, leftAfter, List.foldl_cons]
    change _ ++ (_ ++ data (leftAfter (source.readBlock buffer).rest buffers)) = _
    rw [ih, taken_readBlock]
    exact data_fill buffer.length source

/-- Some of the block reads from a stream are block reads from what is left before them. -/
theorem drop_readBlocks (source : Source) (buffers : List (List UInt8)) (n : Nat) :
    (source.readBlocks buffers).drop n =
      (source.leftAfter (buffers.take n)).readBlocks (buffers.drop n) := by
  induction n generalizing source buffers with
  | zero => rfl
  | succ n ih =>
    cases buffers with
    | nil => rfl
    | cons buffer buffers => exact ih (source.readBlock buffer).rest buffers

/-- What some block reads leave is left over by the others. -/
theorem leftAfter_drop (source : Source) (buffers : List (List UInt8)) (n : Nat) :
    (source.leftAfter (buffers.take n)).leftAfter (buffers.drop n) = source.leftAfter buffers := by
  unfold leftAfter
  rw [← List.foldl_append, List.take_append_drop]

/-- One of the block reads. -/
theorem getElem?_readBlocks {source : Source} {buffers : List (List UInt8)} {i : Nat}
    {buffer : List UInt8} (h : buffers[i]? = some buffer) :
    (source.readBlocks buffers)[i]? =
      some ((source.leftAfter (buffers.take i)).readBlock buffer) := by
  obtain ⟨rest, hrest⟩ : ∃ rest, buffers.drop i = buffer :: rest := by
    rw [← List.head?_eq_some_iff, List.head?_drop, h]
  rw [← List.head?_drop, drop_readBlocks, hrest]
  rfl

/-- **Block reads share out a stream.**  Take any stream, whatever events it has left, and any
buffers that are filled from it one after the other.  What the block reads bring and what is left of
the data in the end make up the data of the stream, in its order.  Each block read does what
`Served` says, with what the ones before it have left; and those behind it share out what is left
after it. -/
theorem readBlocks_share_out (source : Source) (buffers : List (List UInt8)) :
    (source.readBlocks buffers).flatMap BlockRead.taken ++ (source.leftAfter buffers).data =
        source.data ∧
      ∀ i buffer, buffers[i]? = some buffer →
        ∃ read, (source.readBlocks buffers)[i]? = some read ∧
          Served (source.leftAfter (buffers.take i)) buffer read ∧
          source.leftAfter (buffers.take (i + 1)) = read.rest ∧
          ((source.readBlocks buffers).drop (i + 1)).flatMap BlockRead.taken ++
            (source.leftAfter buffers).data = read.rest.data := by
  refine ⟨flatMap_taken_readBlocks source buffers, fun i buffer hi => ?_⟩
  have hnext : source.leftAfter (buffers.take (i + 1)) =
      ((source.leftAfter (buffers.take i)).readBlock buffer).rest := by
    unfold leftAfter
    rw [List.take_add_one, hi, List.foldl_append]
    rfl
  refine ⟨_, getElem?_readBlocks hi, served_readBlock _ buffer, hnext, ?_⟩
  rw [drop_readBlocks, ← leftAfter_drop source buffers (i + 1), flatMap_taken_readBlocks, hnext]

/-- A buffer that cuts a piece of data, a short read over an interruption, a failed read with one
byte before the fault, a buffer without room, and the end of all events. -/
theorem readBlocks_share_out_fault :
    ∃ reads, readBlocks [.data [1, 2, 3], .failed ⟨.interrupted, ""⟩, .data [4], .ended, .data [5],
        .failed ⟨.timedOut, "late"⟩, .data [6]] [[0, 0], [0, 0, 0], [9, 9], [], [7, 7]] = reads ∧
      reads.flatMap BlockRead.taken = [1, 2, 3, 4, 5, 6] ∧
      ∃ read, reads[2]? = some read ∧
        Served [.data [5], .failed ⟨.timedOut, "late"⟩, .data [6]] [9, 9] read ∧
        (reads.drop 3).flatMap BlockRead.taken = [6] := by
  obtain ⟨hdata, hreads⟩ := readBlocks_share_out
    [.data [1, 2, 3], .failed ⟨.interrupted, ""⟩, .data [4], .ended, .data [5],
      .failed ⟨.timedOut, "late"⟩, .data [6]] [[0, 0], [0, 0, 0], [9, 9], [], [7, 7]]
  obtain ⟨read, hread, hserved, hrest, hlater⟩ := hreads 2 [9, 9] rfl
  -- nothing is left in the end, and the last piece of data is left after the failed read
  rw [← hrest] at hlater
  exact ⟨_, rfl, (List.append_nil _).symm.trans hdata, read, hread, hserved,
    (List.append_nil _).symm.trans hlater⟩

end Source
end HexDiff
