import Mathlib.Data.String.Basic
import HexDiff.Proofs.Base40.RoundTrip

/-!
# Decoding onto a text

Chunks of bytes that are decoded one after the other onto one text either extend it or leave it as
it was.

The text is protected twice.  A chunk of odd length is refused before anything is added.  And if a
word of another chunk could not be read, the text would be cut back to its former size, which is
counted in bytes.  Cutting back works for whatever characters the text has, and for whatever is
wrong with the word (`appendUnits_of_error`).  But it is never needed, since each word has three
values that are below forty (`Alphabet.readWord_eq`), words above the largest one included.

So a chunk adds what it decodes to by itself, and what all chunks have added in the end is what
those of even length decode to in one piece (`Alphabet.textAfter_eq`).
-/

namespace HexDiff

/-! ### Cutting back -/

/-- The characters of a list lie within as many bytes as they have. -/
theorem charsWithin_append (cs more : List Char) :
    charsWithin (String.utf8Len cs) (cs ++ more) = cs := by
  induction cs with
  | nil =>
    cases more with
    | nil => rfl
    | cons c more =>
      -- a character has at least one byte
      exact if_neg (Nat.not_le.mpr c.utf8Size_pos)
  | cons c cs ih =>
    rw [List.cons_append, charsWithin, String.utf8Len_cons, if_pos (Nat.le_add_left _ _),
      Nat.add_sub_cancel, ih]

/-- What was added to a text is cut off again. -/
theorem cutBack_append (text more : String) :
    cutBack (text ++ more) text.utf8ByteSize = text := by
  have hsize : text.utf8ByteSize = String.utf8Len text.toList := by
    rw [← String.utf8ByteSize_ofList, String.ofList_toList]
  rw [cutBack, String.toList_append, hsize, charsWithin_append, String.ofList_toList]

namespace Base40

/-- If a word cannot be read, the text is what it was before the first word. -/
theorem appendUnits_of_error {read : UInt16 → Except Error (List Char)} {start more text : String}
    (htext : text = start ++ more) {bytes : List UInt8} {e : Error}
    (h : (appendUnits read start.utf8ByteSize text bytes).2 = some e) :
    (appendUnits read start.utf8ByteSize text bytes).1 = start := by
  subst htext
  fun_induction words bytes generalizing more with
  | case1 lo hi rest ih =>
    rw [appendUnits] at h ⊢
    cases hread : read (wordOfBytes lo hi) with
    | ok cs =>
      simp only [hread, String.append_assoc] at h ⊢
      exact ih h
    | error e => exact cutBack_append start more
  | case2 bytes hshort =>
    rw [appendUnits] at h
    · cases h
    · exact hshort

/-- If all words can be read, their characters are added in their order. -/
theorem appendUnits_of_ok {read : UInt16 → Except Error (List Char)} {f : UInt16 → List Char}
    (hread : ∀ w, read w = .ok (f w)) (size : Nat) (text : String) (bytes : List UInt8) :
    appendUnits read size text bytes =
      (text ++ String.ofList ((words bytes).flatMap f), none) := by
  fun_induction words bytes generalizing text with
  | case1 lo hi rest ih =>
    rw [appendUnits, hread]
    simp only [ih, List.flatMap_cons, String.ofList_append, String.append_assoc]
  | case2 bytes hshort =>
    rw [appendUnits]
    · simp
    · exact hshort

/-! ### Reading words -/

namespace Alphabet

variable (α : Alphabet)

/-- A byte that is the value of a digit is read as the symbol of this digit. -/
theorem decodeChar_of_toNat {value : UInt8} {v : Digit} (h : value.toNat = v) :
    α.decodeChar value = .ok (α.symbol v) := by
  have hlt : value.toNat < 40 := h ▸ v.isLt
  obtain rfl : ⟨value.toNat, hlt⟩ = v := Fin.ext h
  exact dif_pos hlt

/-- Every word can be read, and what is read is what it decodes to. -/
theorem readWord_eq (w : UInt16) : α.readWord w = .ok (α.decodeWord w) := by
  have hvalue : ∀ n : UInt16, (n % 40).toUInt8.toNat = (Fin.ofNat 40 n.toNat : Digit) := by
    intro n
    simp only [UInt16.toNat_toUInt8, UInt16.toNat_mod, UInt16.reduceToNat, Fin.val_ofNat]
    omega
  have h₁ := α.decodeChar_of_toNat (hvalue (w / 1600))
  have h₂ := α.decodeChar_of_toNat (hvalue (w / 40))
  have h₃ := α.decodeChar_of_toNat (hvalue w)
  rw [UInt16.toNat_div] at h₁ h₂
  rw [readWord, valueBytes, List.mapM_cons, List.mapM_cons, List.mapM_cons, h₁, h₂, h₃]
  rfl

/-- Bytes are decoded word by word. -/
theorem decodeUnits_eq (bytes : List UInt8) :
    α.decodeUnits bytes = (words bytes).flatMap α.decodeWord := by
  fun_induction words bytes with
  | case1 lo hi rest ih => rw [decodeUnits, ih, List.flatMap_cons]
  | case2 bytes hshort =>
    rw [decodeUnits, List.flatMap_nil]
    exact hshort

/-- Bytes that end with a word are decoded by themselves, whatever is behind them. -/
theorem decodeUnits_append {bytes : List UInt8} (h : bytes.length % bytesPerUnit = 0)
    (more : List UInt8) :
    α.decodeUnits (bytes ++ more) = α.decodeUnits bytes ++ α.decodeUnits more := by
  fun_induction decodeUnits α bytes with
  | case1 lo hi rest ih =>
    have hrest : rest.length % bytesPerUnit = 0 := by
      simp only [List.length_cons, bytesPerUnit] at h ⊢
      omega
    rw [List.cons_append, List.cons_append, decodeUnits, ih hrest, List.append_assoc]
  | case2 bytes hshort =>
    rcases bytes with _ | ⟨lo, _ | ⟨hi, rest⟩⟩
    · rfl
    · cases h
    · exact (hshort lo hi rest rfl).elim

/-! ### One chunk -/

/-- A chunk of odd length is refused. -/
theorem decodeInto_of_odd {bytes : List UInt8} (h : bytes.length % bytesPerUnit ≠ 0)
    (text : String) :
    α.decodeInto text bytes = (text, some (.inputLength bytes.length bytesPerUnit)) :=
  if_pos h

/-- A chunk of even length is added. -/
theorem decodeInto_of_even {bytes : List UInt8} (h : bytes.length % bytesPerUnit = 0)
    (text : String) :
    α.decodeInto text bytes = (text ++ String.ofList (α.decodeUnits bytes), none) := by
  rw [decodeInto, if_neg (not_not.mpr h), appendUnits_of_ok α.readWord_eq, decodeUnits_eq]

/-- A chunk that is refused, for whatever reason, leaves the text as it was. -/
theorem decodeInto_of_error {text : String} {bytes : List UInt8} {e : Error}
    (h : (α.decodeInto text bytes).2 = some e) : (α.decodeInto text bytes).1 = text := by
  unfold decodeInto at h ⊢
  split
  · rfl
  · next heven =>
    rw [if_neg heven] at h
    exact appendUnits_of_error String.append_empty.symm h

/-- Decoding bytes is decoding them onto an empty text. -/
theorem decode_eq_decodeInto (bytes : List UInt8) :
    α.decode bytes =
      (α.decodeInto "" bytes).2.elim (.ok (α.decodeInto "" bytes).1) .error := by
  by_cases h : bytes.length % bytesPerUnit = 0
  · rw [α.decodeInto_of_even h, decode, if_neg (not_not.mpr h), String.empty_append]
    rfl
  · rw [α.decodeInto_of_odd h, decode, if_pos h]
    rfl

/-- What a chunk does to a text. -/
structure Extended (before : String) (chunk : List UInt8) (text : String) (error : Option Error) :
    Prop where
  /-- The chunk is refused exactly if it has an odd number of bytes. -/
  refused_iff : error ≠ none ↔ chunk.length % bytesPerUnit ≠ 0
  /-- The error is always about this number, and never about a value without a symbol. -/
  length_reported : ∀ e, error = some e → e = .inputLength chunk.length bytesPerUnit
  /-- A chunk that is refused leaves the text as it was. -/
  unchanged : error ≠ none → text = before
  /-- Any other chunk adds what it decodes to by itself. -/
  added : error = none → ∃ decoded, α.decode chunk = .ok decoded ∧ text = before ++ decoded

/-- Every chunk does so. -/
theorem extended_decodeInto (text : String) (chunk : List UInt8) :
    α.Extended text chunk (α.decodeInto text chunk).1 (α.decodeInto text chunk).2 := by
  have hback : (α.decodeInto text chunk).2 ≠ none → (α.decodeInto text chunk).1 = text := by
    intro hne
    obtain ⟨e, he⟩ := Option.ne_none_iff_exists'.mp hne
    exact α.decodeInto_of_error he
  by_cases h : chunk.length % bytesPerUnit = 0
  · rw [α.decodeInto_of_even h] at hback ⊢
    exact {
      refused_iff := iff_of_false (fun hne => hne rfl) (not_not.mpr h)
      length_reported := fun e he => by cases he
      unchanged := hback
      added := fun _ => ⟨_, if_neg (not_not.mpr h), rfl⟩ }
  · rw [α.decodeInto_of_odd h] at hback ⊢
    exact {
      refused_iff := iff_of_true (Option.some_ne_none _) h
      length_reported := fun e he => (Option.some.inj he).symm
      unchanged := hback
      added := fun hnone => by cases hnone }

/-! ### All chunks -/

/-- The text after some chunks. -/
def textAfter (start : String) (chunks : List (List UInt8)) : String :=
  chunks.foldl (fun text chunk => (α.decodeInto text chunk).1) start

/-- The chunks that are made of whole words. -/
def wholeChunks (chunks : List (List UInt8)) : List (List UInt8) :=
  chunks.filter fun chunk => chunk.length % bytesPerUnit = 0

/-- A whole chunk is kept, and any other one is dropped. -/
theorem wholeChunks_cons (chunk : List UInt8) (chunks : List (List UInt8)) :
    wholeChunks (chunk :: chunks) =
      if chunk.length % bytesPerUnit = 0 then chunk :: wholeChunks chunks
      else wholeChunks chunks := by
  simp only [wholeChunks, List.filter_cons, decide_eq_true_eq]

/-- Whole chunks are whole words together. -/
theorem length_flatten_wholeChunks (chunks : List (List UInt8)) :
    (wholeChunks chunks).flatten.length % bytesPerUnit = 0 := by
  induction chunks with
  | nil => rfl
  | cons chunk chunks ih =>
    rw [wholeChunks_cons]
    split
    · next h =>
      rw [List.flatten_cons, List.length_append, Nat.add_mod, h, ih]
      rfl
    · exact ih

/-- Decoding chunks adds what the whole ones among them decode to in one piece. -/
theorem textAfter_eq (start : String) (chunks : List (List UInt8)) :
    α.textAfter start chunks =
      start ++ String.ofList (α.decodeUnits (wholeChunks chunks).flatten) := by
  induction chunks generalizing start with
  | nil => exact String.append_empty.symm
  | cons chunk chunks ih =>
    change α.textAfter (α.decodeInto start chunk).1 chunks = _
    rw [ih, wholeChunks_cons]
    split
    · next h =>
      rw [decodeInto_of_even α h, List.flatten_cons, decodeUnits_append α h,
        String.ofList_append, String.append_assoc]
    · next h => rw [decodeInto_of_odd α h]

/-- Each chunk is decoded onto the text after the chunks before it. -/
theorem getElem?_decodeChunks (start : String) {chunks : List (List UInt8)} {i : Nat}
    {chunk : List UInt8} (h : chunks[i]? = some chunk) :
    (α.decodeChunks start chunks)[i]? =
      some (α.decodeInto (α.textAfter start (chunks.take i)) chunk) := by
  induction chunks generalizing start i with
  | nil => cases h
  | cons first chunks ih =>
    cases i with
    | zero =>
      obtain rfl := Option.some.inj h
      rfl
    | succ i => exact ih (α.decodeInto start first).1 h

/-- One more chunk. -/
theorem textAfter_take_succ (start : String) {chunks : List (List UInt8)} {i : Nat}
    {chunk : List UInt8} (h : chunks[i]? = some chunk) :
    α.textAfter start (chunks.take (i + 1)) =
      (α.decodeInto (α.textAfter start (chunks.take i)) chunk).1 := by
  unfold textAfter
  rw [List.take_add_one, h, List.foldl_append]
  rfl

/-- **Decoding chunks onto a text.**  Take any alphabet, any text to start with, and any chunks of
bytes that are decoded one after the other onto it.  Each chunk does to the text that the chunks
before it have left what `Extended` says.  The text at the end is the one at the start with what the
chunks of even length decode to in one piece behind it, and these are three characters for two
bytes. -/
theorem decodeChunks_append (start : String) (chunks : List (List UInt8)) :
    (∀ i chunk, chunks[i]? = some chunk →
      ∃ text error, (α.decodeChunks start chunks)[i]? = some (text, error) ∧
        text = α.textAfter start (chunks.take (i + 1)) ∧
        α.Extended (α.textAfter start (chunks.take i)) chunk text error) ∧
      ∃ decoded, α.decode (wholeChunks chunks).flatten = .ok decoded ∧
        α.textAfter start chunks = start ++ decoded ∧
        decoded.length = charsPerUnit * ((wholeChunks chunks).flatten.length / bytesPerUnit) := by
  constructor
  · intro i chunk hi
    exact ⟨_, _, α.getElem?_decodeChunks start hi, (α.textAfter_take_succ start hi).symm,
      α.extended_decodeInto _ chunk⟩
  · refine ⟨String.ofList (α.decodeUnits (wholeChunks chunks).flatten), ?_, ?_, ?_⟩
    · exact if_neg (not_not.mpr (length_flatten_wholeChunks chunks))
    · exact α.textAfter_eq start chunks
    · rw [String.length_ofList, length_decodeUnits_eq]

/-- Two chunks that are refused, one of them with a whole word in it, between two that are added to
a text with a character of two bytes; the last word is above the largest one. -/
theorem decodeChunks_append_refused :
    standard.textAfter "é>" [[0x01], [0x01, 0x00], [0x02, 0x00, 0x07], [0x00, 0xFA]] =
        "é>  A   " ∧
      (standard.decodeChunks "é>" [[0x01], [0x01, 0x00], [0x02, 0x00, 0x07], [0x00, 0xFA]])[2]? =
        some ("é>  A", some (.inputLength 3 2)) := by
  obtain ⟨hreports, decoded, hdecoded, hafter, -⟩ :=
    standard.decodeChunks_append "é>" [[0x01], [0x01, 0x00], [0x02, 0x00, 0x07], [0x00, 0xFA]]
  constructor
  · have hwhole : standard.decode [0x01, 0x00, 0x00, 0xFA] = .ok "  A   " := by decide +kernel
    obtain rfl := Except.ok.inj (hdecoded.symm.trans hwhole)
    exact hafter
  · obtain ⟨text, error, hreport, -, hextended⟩ := hreports 2 [0x02, 0x00, 0x07] rfl
    have hrefused : error ≠ none := hextended.refused_iff.mpr (by decide)
    have hbefore : standard.textAfter "é>" [[0x01], [0x01, 0x00]] = "é>  A" := by decide +kernel
    obtain rfl : text = "é>  A" := (hextended.unchanged hrefused).trans hbefore
    obtain ⟨e, rfl⟩ := Option.ne_none_iff_exists'.mp hrefused
    obtain rfl := hextended.length_reported e rfl
    exact hreport

end Alphabet
end Base40
end HexDiff
