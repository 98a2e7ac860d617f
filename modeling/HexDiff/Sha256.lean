/-!
# SHA-256

The digest of 32 bytes by which the contents of a file can be told apart.

A message is padded to whole blocks of 64 bytes.  Each block is spread over a schedule of 64 words,
and the rounds, one for each word of the schedule, mix it into a running value of eight words.  The
schedule is built in reverse: every further word depends on four of the sixteen before it, which
are then the first ones of the list.

A message may also come in pieces of any length.  A hasher keeps what does not fill a block yet
until more comes, so that it never holds more than a piece and part of a block.
-/

namespace HexDiff

namespace Sha256

/-! ### Words -/

/-- Rotates a word to the right by less than its width. -/
def rotate (w n : UInt32) : UInt32 :=
  (w >>> n) ||| (w <<< (32 - n))

/-- A word of four bytes, the most significant one first. -/
def word (b₃ b₂ b₁ b₀ : UInt8) : UInt32 :=
  b₃.toUInt32 <<< 24 ||| b₂.toUInt32 <<< 16 ||| b₁.toUInt32 <<< 8 ||| b₀.toUInt32

/-- The words of some bytes, four bytes to a word. -/
def words : List UInt8 → List UInt32
  | b₃ :: b₂ :: b₁ :: b₀ :: rest => word b₃ b₂ b₁ b₀ :: words rest
  | _ => []

/-- The bytes of a word, the most significant one first. -/
def wordBytes (w : UInt32) : List UInt8 :=
  [(w >>> 24).toUInt8, (w >>> 16).toUInt8, (w >>> 8).toUInt8, w.toUInt8]

/-! ### Padding -/

/-- The number of bits of a message, in eight bytes. -/
def lengthBytes (bytes : Nat) : List UInt8 :=
  (List.range 8).map fun i => UInt8.ofNat ((8 * bytes) >>> (8 * (7 - i)))

/-- What is appended to a message of some length: a mark, zeros to fill the block, and the
length. -/
def padding (bytes : Nat) : List UInt8 :=
  0x80 :: List.replicate ((119 - bytes % 64) % 64) 0 ++ lengthBytes bytes

/-- A padded message consists of whole blocks. -/
theorem length_padding (bytes : Nat) : (bytes + (padding bytes).length) % 64 = 0 := by
  simp only [padding, lengthBytes, List.length_cons, List.length_append, List.length_replicate,
    List.length_map, List.length_range]
  omega

/-! ### Rounds -/

/-- The running value. -/
structure State where
  a : UInt32
  b : UInt32
  c : UInt32
  d : UInt32
  e : UInt32
  f : UInt32
  g : UInt32
  h : UInt32
  deriving DecidableEq, Repr

/-- The running value before the first block. -/
def State.initial : State :=
  ⟨0x6a09e667, 0xbb67ae85, 0x3c6ef372, 0xa54ff53a, 0x510e527f, 0x9b05688c, 0x1f83d9ab, 0x5be0cd19⟩

/-- The sum of two values, word by word. -/
def State.add (s t : State) : State :=
  ⟨s.a + t.a, s.b + t.b, s.c + t.c, s.d + t.d, s.e + t.e, s.f + t.f, s.g + t.g, s.h + t.h⟩

/-- The bytes of a value. -/
def State.bytes (s : State) : List UInt8 :=
  [s.a, s.b, s.c, s.d, s.e, s.f, s.g, s.h].flatMap wordBytes

/-- The constant of each round. -/
def constants : List UInt32 :=
  [0x428a2f98, 0x71374491, 0xb5c0fbcf, 0xe9b5dba5, 0x3956c25b, 0x59f111f1, 0x923f82a4, 0xab1c5ed5,
   0xd807aa98, 0x12835b01, 0x243185be, 0x550c7dc3, 0x72be5d74, 0x80deb1fe, 0x9bdc06a7, 0xc19bf174,
   0xe49b69c1, 0xefbe4786, 0x0fc19dc6, 0x240ca1cc, 0x2de92c6f, 0x4a7484aa, 0x5cb0a9dc, 0x76f988da,
   0x983e5152, 0xa831c66d, 0xb00327c8, 0xbf597fc7, 0xc6e00bf3, 0xd5a79147, 0x06ca6351, 0x14292967,
   0x27b70a85, 0x2e1b2138, 0x4d2c6dfc, 0x53380d13, 0x650a7354, 0x766a0abb, 0x81c2c92e, 0x92722c85,
   0xa2bfe8a1, 0xa81a664b, 0xc24b8b70, 0xc76c51a3, 0xd192e819, 0xd6990624, 0xf40e3585, 0x106aa070,
   0x19a4c116, 0x1e376c08, 0x2748774c, 0x34b0bcb5, 0x391c0cb3, 0x4ed8aa4a, 0x5b9cca4f, 0x682e6ff3,
   0x748f82ee, 0x78a5636f, 0x84c87814, 0x8cc70208, 0x90befffa, 0xa4506ceb, 0xbef9a3f7, 0xc67178f2]

/-- A schedule in reverse, with one more word. -/
def extend (schedule : List UInt32) : List UInt32 :=
  let recent := schedule.getD 1 0
  let early := schedule.getD 14 0
  let fromRecent := rotate recent 17 ^^^ rotate recent 19 ^^^ (recent >>> 10)
  let fromEarly := rotate early 7 ^^^ rotate early 18 ^^^ (early >>> 3)
  (fromRecent + schedule.getD 6 0 + fromEarly + schedule.getD 15 0) :: schedule

/-- The schedule of a block of 16 words. -/
def schedule (block : List UInt32) : List UInt32 :=
  (Nat.repeat extend 48 block.reverse).reverse

/-- One round, with a constant and a word of the schedule. -/
def round (s : State) (k w : UInt32) : State :=
  let fromE := rotate s.e 6 ^^^ rotate s.e 11 ^^^ rotate s.e 25
  let choice := (s.e &&& s.f) ^^^ (~~~s.e &&& s.g)
  let fromA := rotate s.a 2 ^^^ rotate s.a 13 ^^^ rotate s.a 22
  let majority := (s.a &&& s.b) ^^^ (s.a &&& s.c) ^^^ (s.b &&& s.c)
  let t := s.h + fromE + choice + k + w
  ⟨t + fromA + majority, s.a, s.b, s.c, s.d + t, s.e, s.f, s.g⟩

/-- The running value after a block of 16 words. -/
def compress (s : State) (block : List UInt32) : State :=
  s.add ((constants.zip (schedule block)).foldl (fun t (k, w) => round t k w) s)

/-- The running value after all blocks of some bytes. -/
def absorb (s : State) (bytes : List UInt8) : State :=
  match bytes with
  | [] => s
  | b :: rest => absorb (compress s (words (b :: rest.take 63))) (rest.drop 63)
termination_by bytes.length
decreasing_by
  simp only [List.length_cons, List.length_drop]
  omega

end Sha256

/-- The SHA-256 digest of a message. -/
def sha256 (message : List UInt8) : List UInt8 :=
  (Sha256.absorb .initial (message ++ Sha256.padding message.length)).bytes

namespace Sha256

/-! ### Messages in pieces -/

/-- How far the digest of a message has come that is given piece by piece. -/
structure Hasher where
  /-- The running value after the blocks that are full. -/
  state : State := .initial
  /-- The bytes behind these blocks. -/
  pending : List UInt8 := []
  /-- The number of all bytes so far. -/
  length : Nat := 0
  deriving DecidableEq, Repr

namespace Hasher

/-- Takes in one more piece. -/
def update (h : Hasher) (piece : List UInt8) : Hasher :=
  let bytes := h.pending ++ piece
  let whole := bytes.length - bytes.length % 64
  { state := absorb h.state (bytes.take whole)
    pending := bytes.drop whole
    length := h.length + piece.length }

/-- The digest of all pieces together. -/
def digest (h : Hasher) : List UInt8 :=
  (absorb h.state (h.pending ++ padding h.length)).bytes

end Hasher
end Sha256
end HexDiff
