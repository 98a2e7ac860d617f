import HexDiff.Proofs.Numerals
import HexDiff.Text.HexBytes

/-!
# Which texts are bytes in hex

`HexBytes.pairBytes` are the bytes that digits stand for, two at a time.  `HexBytes.read_accepts`
says which pieces of text are read, and that what is read are these bytes of their digits.  Besides
digits one thing is accepted, since each two characters are read as a number: a plus sign in the
first place of a pair, where it counts as a zero (`HexBytes.readPairs_eq_ok_iff`).  Among the texts
without a plus sign, exactly those of hex digits are read.

Whether a zero is put in front depends on the number of bytes in UTF-8.  For the texts that are
accepted this is the number of characters (`length_utf8_of_ascii`), and the other texts are refused
with the zero or without.
-/

namespace HexDiff

/-- A text of ASCII has as many bytes as characters. -/
theorem length_utf8_of_ascii {cs : List Char} (h : ∀ c ∈ cs, c.toNat < 128) :
    (utf8 cs).length = cs.length := by
  induction cs with
  | nil => rfl
  | cons c cs ih =>
    obtain ⟨hc, hcs⟩ := List.forall_mem_cons.mp h
    have hone : c.utf8Size = 1 := by
      rw [Char.utf8Size_eq_one_iff, UInt32.le_iff_toNat_le]
      exact Nat.le_of_lt_succ hc
    have hrest : (cs.flatMap String.utf8EncodeChar).length = cs.length := ih hcs
    rw [utf8, List.flatMap_cons, List.length_append, String.length_utf8EncodeChar, hone, hrest,
      List.length_cons, Nat.add_comm]

/-- A hex digit is a character of ASCII. -/
theorem Hex.toNat_lt_of_isHexDigit {c : Char} (h : c.isHexDigit) : c.toNat < 128 := by
  rw [isHexDigit_iff_toNat] at h
  omega

namespace HexBytes

/-- Some digits with a zero in front if their number is odd. -/
def evened (digits : List Char) : List Char :=
  if digits.length % 2 = 1 then '0' :: digits else digits

/-- The bytes of some digits, two digits each. -/
def pairBytes : List Char → List UInt8
  | first :: second :: rest => UInt8.ofNat (Hex.value [first, second]) :: pairBytes rest
  | _ => []

/-- Digits in pairs, with a plus sign perhaps in the place of a first digit. -/
def Paired (digits : List Char) : Prop :=
  ∀ i c, digits[i]? = some c → c.isHexDigit ∨ c = '+' ∧ i % 2 = 0

/-! ### Pairs of characters -/

/-- Two digits make a byte. -/
theorem value_pair_lt (first second : Char) : Hex.value [first, second] < 256 := by
  have hdigit : ∀ c, (Hex.digitValue? c).getD 0 < 16 := by
    intro c
    cases hc : Hex.digitValue? c with
    | none => exact Nat.zero_lt_succ 15
    | some d => exact Hex.digitValue?_lt hc
  have hfirst := hdigit first
  have hsecond := hdigit second
  have hvalue : Hex.value [first, second] =
      16 * (16 * 0 + (Hex.digitValue? first).getD 0) + (Hex.digitValue? second).getD 0 := rfl
  omega

/-- Two characters are read if they are two digits, or a plus sign and a digit. -/
theorem read_pair_eq_ok_iff (first second : Char) (n : Nat) :
    Numeral.read 16 256 [first, second] = .ok n ↔
      (first.isHexDigit ∨ first = '+') ∧ second.isHexDigit ∧ n = Hex.value [first, second] := by
  have hlt := value_pair_lt first second
  rw [Numeral.read_eq_ok_iff (by omega)]
  constructor
  · rintro ⟨sign, digits, htext, hsign, -, hall, rfl, -⟩
    rcases List.mem_pair.mp hsign with rfl | rfl
    · rw [List.nil_append] at htext
      subst htext
      exact ⟨Or.inl (hall first (by simp)), hall second (by simp), rfl⟩
    · obtain ⟨rfl, rfl⟩ := List.cons.inj htext
      exact ⟨Or.inr rfl, hall second (by simp), rfl⟩
  · rintro ⟨hfirst, hsecond, rfl⟩
    rcases hfirst with hfirst | rfl
    · have hall : ∀ c ∈ [first, second], c.isHexDigit := by
        simp [hfirst, hsecond]
      exact ⟨[], [first, second], rfl, by simp, by simp, hall, rfl, hlt⟩
    · have hall : ∀ c ∈ [second], c.isHexDigit := by
        simp [hsecond]
      exact ⟨['+'], [second], rfl, by simp, by simp, hall, rfl, hlt⟩

/-- The first pair, and the others. -/
theorem paired_cons_cons_iff (first second : Char) (rest : List Char) :
    Paired (first :: second :: rest) ↔
      (first.isHexDigit ∨ first = '+') ∧ second.isHexDigit ∧ Paired rest := by
  constructor
  · intro h
    refine ⟨?_, ?_, ?_⟩
    · exact (h 0 first rfl).imp_right And.left
    · rcases h 1 second rfl with hdigit | ⟨-, hplace⟩
      · exact hdigit
      · cases hplace
    · intro i c hc
      have hplace := h (i + 2) c hc
      rwa [Nat.add_mod_right] at hplace
  · rintro ⟨hfirst, hsecond, hrest⟩ i c hc
    rcases i with _ | _ | i
    · obtain rfl : first = c := Option.some.inj hc
      exact hfirst.imp_right fun hplus => ⟨hplus, rfl⟩
    · obtain rfl : second = c := Option.some.inj hc
      exact Or.inl hsecond
    · rw [Nat.add_assoc, Nat.add_mod_right]
      exact hrest i c hc

/-- The pairs that are read, and their bytes. -/
theorem readPairs_eq_ok_iff {digits : List Char} (heven : digits.length % 2 = 0)
    (bytes : List UInt8) :
    readPairs digits = .ok bytes ↔ Paired digits ∧ bytes = pairBytes digits := by
  fun_induction readPairs digits generalizing bytes with
  | case1 first second rest e hread =>
    refine iff_of_false (by rintro ⟨⟩) ?_
    rintro ⟨hpaired, -⟩
    obtain ⟨hfirst, hsecond, -⟩ := (paired_cons_cons_iff first second rest).mp hpaired
    have hok := (read_pair_eq_ok_iff first second _).mpr ⟨hfirst, hsecond, rfl⟩
    rw [hread] at hok
    cases hok
  | case2 first second rest n hread ih =>
    obtain ⟨hfirst, hsecond, rfl⟩ := (read_pair_eq_ok_iff first second n).mp hread
    have hrest : rest.length % 2 = 0 := by
      rwa [List.length_cons, List.length_cons, Nat.add_assoc, Nat.add_mod_right] at heven
    rw [paired_cons_cons_iff, and_iff_right hfirst, and_iff_right hsecond, pairBytes]
    cases hpairs : readPairs rest with
    | error e =>
      have hnot : ¬Paired rest := by
        intro hpaired
        have hok := (ih hrest _).mpr ⟨hpaired, rfl⟩
        rw [hpairs] at hok
        cases hok
      exact iff_of_false (by rintro ⟨⟩) fun h => hnot h.1
    | ok more =>
      obtain ⟨hpaired, rfl⟩ := (ih hrest more).mp hpairs
      rw [and_iff_right hpaired, Except.map, Except.ok.injEq]
      exact eq_comm
  | case3 digits hshort =>
    -- one character alone is not an even number
    cases digits with
    | nil =>
      have hnone : Paired [] := by
        rintro i c ⟨⟩
      rw [and_iff_right hnone, Except.ok.injEq]
      exact eq_comm
    | cons c rest =>
      cases rest with
      | nil => cases heven
      | cons second rest => exact absurd rfl (hshort c second rest)

/-! ### A zero in front -/

/-- There is an even number of digits then. -/
theorem length_evened_mod_two (digits : List Char) : (evened digits).length % 2 = 0 := by
  unfold evened
  split
  · rw [List.length_cons]
    omega
  · omega

/-- No digit is taken away. -/
theorem mem_evened {c : Char} {digits : List Char} (h : c ∈ digits) : c ∈ evened digits := by
  unfold evened
  split
  · exact List.mem_cons_of_mem '0' h
  · exact h

/-- Nothing but a zero is added. -/
theorem of_mem_evened {c : Char} {digits : List Char} (h : c ∈ evened digits) :
    c = '0' ∨ c ∈ digits := by
  unfold evened at h
  split at h
  · exact List.mem_cons.mp h
  · exact Or.inr h

/-- In ASCII the bytes can be counted as characters. -/
theorem pad_eq_evened {digits : List Char} (h : ∀ c ∈ digits, c.toNat < 128) :
    pad digits = evened digits := by
  rw [pad, evened, length_utf8_of_ascii h]

/-- The padding takes no character away. -/
theorem mem_pad {c : Char} {digits : List Char} (h : c ∈ digits) : c ∈ pad digits := by
  unfold pad
  split
  · exact List.mem_cons_of_mem '0' h
  · exact h

/-- What may stand in pairs is ASCII. -/
theorem Paired.ascii {digits : List Char} (h : Paired digits) : ∀ c ∈ digits, c.toNat < 128 := by
  intro c hc
  obtain ⟨i, hi⟩ := List.mem_iff_getElem?.mp hc
  rcases h i c hi with hdigit | ⟨rfl, -⟩
  · exact Hex.toNat_lt_of_isHexDigit hdigit
  · decide

/-- Pairs without a plus sign are digits only. -/
theorem paired_evened_iff (digits : List Char) :
    Paired (evened digits) ∧ '+' ∉ digits ↔ ∀ c ∈ digits, c.isHexDigit := by
  constructor
  · rintro ⟨h, hplus⟩ c hc
    obtain ⟨i, hi⟩ := List.mem_iff_getElem?.mp (mem_evened hc)
    rcases h i c hi with hdigit | ⟨rfl, -⟩
    · exact hdigit
    · exact absurd hc hplus
  · intro h
    refine ⟨?_, ?_⟩
    · intro i c hc
      rcases of_mem_evened (List.mem_of_getElem? hc) with rfl | hmem
      · exact Or.inl rfl
      · exact Or.inl (h c hmem)
    · intro hplus
      exact absurd (h '+' hplus) (by decide)

/-! ### Pieces of text -/

/-- What is read are the pairs of the digits. -/
theorem read_eq_ok_iff (pieces : List String) (bytes : List UInt8) :
    read pieces = .ok bytes ↔
      Paired (evened (join pieces)) ∧ bytes = pairBytes (evened (join pieces)) := by
  by_cases hascii : ∀ c ∈ join pieces, c.toNat < 128
  · have hall : (evened (join pieces)).all fun c => c.toNat < 128 := by
      rw [List.all_eq_true]
      intro c hc
      rcases of_mem_evened hc with rfl | hmem
      · rfl
      · exact decide_eq_true (hascii c hmem)
    unfold read
    dsimp only
    rw [pad_eq_evened hascii, if_pos hall]
    exact readPairs_eq_ok_iff (length_evened_mod_two _) bytes
  · -- such a character is left by any padding, and it stands in no pair
    have hnot : ¬(pad (join pieces)).all fun c => c.toNat < 128 := by
      rw [List.all_eq_true]
      intro h
      exact hascii fun c hc => of_decide_eq_true (h c (mem_pad hc))
    unfold read
    dsimp only
    rw [if_neg hnot]
    exact iff_of_false (by rintro ⟨⟩) fun h => hascii fun c hc => h.1.ascii c (mem_evened hc)

/-- **Which texts are bytes in hex.**  Take the characters of all pieces that are no blanks, with a
zero in front if their number is odd.  They are read exactly if each of them is a hex digit, or a
plus sign in the first place of a pair, and then as the bytes of their pairs.  Those that are read
and have no plus sign are exactly the texts of hex digits.  How the characters are cut into pieces,
and which blanks there are, makes no difference. -/
theorem read_accepts (pieces : List String) (bytes : List UInt8) :
    let digits := join pieces
    (read pieces = .ok bytes ↔
      (∀ i c, (evened digits)[i]? = some c → c.isHexDigit ∨ c = '+' ∧ i % 2 = 0) ∧
        bytes = pairBytes (evened digits)) ∧
    (read pieces = .ok bytes ∧ '+' ∉ digits ↔
      (∀ c ∈ digits, c.isHexDigit) ∧ bytes = pairBytes (evened digits)) ∧
    ∀ others, join others = digits → read others = read pieces := by
  intro digits
  have hread : read pieces = .ok bytes ↔
      Paired (evened digits) ∧ bytes = pairBytes (evened digits) := read_eq_ok_iff pieces bytes
  have hpaired := paired_evened_iff digits
  refine ⟨hread, ?_, ?_⟩
  · rw [hread, ← hpaired, and_right_comm]
  · intro others hothers
    rw [read, read, hothers]

/-- An odd number of digits, cut in the middle of a byte, with a blank outside ASCII. -/
theorem read_accepts_odd :
    join ["9f151"] = join ["9f\u20031", "5\t1"] ∧
      read ["9f\u20031", "5\t1"] = .ok [0x09, 0xf1, 0x51] ∧
      read ["9f151"] = read ["9f\u20031", "5\t1"] := by
  have hcut : join ["9f151"] = join ["9f\u20031", "5\t1"] := by decide
  have hall : (join ["9f\u20031", "5\t1"]).all Char.isHexDigit := by decide
  have hbytes : [0x09, 0xf1, 0x51] = pairBytes (evened (join ["9f\u20031", "5\t1"])) := by decide
  obtain ⟨-, hdigits, hpieces⟩ := read_accepts ["9f\u20031", "5\t1"] [0x09, 0xf1, 0x51]
  have hread := (hdigits.mpr ⟨List.all_eq_true.mp hall, hbytes⟩).1
  exact ⟨hcut, hread, hpieces _ hcut⟩

/-- A text that is read and is not made of hex digits. -/
theorem read_plus_sign :
    read ["+1"] = .ok [1] ∧ ¬∀ c ∈ join ["+1"], c.isHexDigit := by
  have hmem : '+' ∈ join ["+1"] := by decide
  have hplus : ¬Char.isHexDigit '+' := by decide
  exact ⟨by decide, fun h => hplus (h '+' hmem)⟩

end HexBytes
end HexDiff
