/-
PropSchema.Digest.Sha256 — the SHA-256 hash of a sequence of bytes.

A message is padded to whole blocks of 64 bytes: one byte 0x80, zeros, and the
message's length in bits as eight bytes. Each block is expanded to 64 words,
each of which drives one round on a state of eight words; the state after a
block is the state before it plus the outcome of the rounds, word by word. The
hash is the last state, most significant byte first.
-/
import PropSchema.Number.Numeral

namespace PropSchema.Digest

/-! ## Constants -/

/-- One word for each round: the first 32 bits of the fractional parts of the
cube roots of the first 64 primes. -/
def roundConstants : List UInt32 :=
  [
    0x428a2f98, 0x71374491, 0xb5c0fbcf, 0xe9b5dba5, 0x3956c25b, 0x59f111f1, 0x923f82a4, 0xab1c5ed5,
    0xd807aa98, 0x12835b01, 0x243185be, 0x550c7dc3, 0x72be5d74, 0x80deb1fe, 0x9bdc06a7, 0xc19bf174,
    0xe49b69c1, 0xefbe4786, 0x0fc19dc6, 0x240ca1cc, 0x2de92c6f, 0x4a7484aa, 0x5cb0a9dc, 0x76f988da,
    0x983e5152, 0xa831c66d, 0xb00327c8, 0xbf597fc7, 0xc6e00bf3, 0xd5a79147, 0x06ca6351, 0x14292967,
    0x27b70a85, 0x2e1b2138, 0x4d2c6dfc, 0x53380d13, 0x650a7354, 0x766a0abb, 0x81c2c92e, 0x92722c85,
    0xa2bfe8a1, 0xa81a664b, 0xc24b8b70, 0xc76c51a3, 0xd192e819, 0xd6990624, 0xf40e3585, 0x106aa070,
    0x19a4c116, 0x1e376c08, 0x2748774c, 0x34b0bcb5, 0x391c0cb3, 0x4ed8aa4a, 0x5b9cca4f, 0x682e6ff3,
    0x748f82ee, 0x78a5636f, 0x84c87814, 0x8cc70208, 0x90befffa, 0xa4506ceb, 0xbef9a3f7, 0xc67178f2]

/-- Eight words that the rounds work on. -/
structure State where
  a : UInt32
  b : UInt32
  c : UInt32
  d : UInt32
  e : UInt32
  f : UInt32
  g : UInt32
  h : UInt32
  deriving DecidableEq, Repr

namespace State

/-- The state before the first block: the first 32 bits of the fractional parts
of the square roots of the first eight primes. -/
def initial : State :=
  ⟨0x6a09e667, 0xbb67ae85, 0x3c6ef372, 0xa54ff53a,
    0x510e527f, 0x9b05688c, 0x1f83d9ab, 0x5be0cd19⟩

/-- The sum of two states, word by word. -/
def add (s t : State) : State :=
  ⟨s.a + t.a, s.b + t.b, s.c + t.c, s.d + t.d, s.e + t.e, s.f + t.f, s.g + t.g, s.h + t.h⟩

/-- The words of a state in order. -/
def words (s : State) : List UInt32 :=
  [s.a, s.b, s.c, s.d, s.e, s.f, s.g, s.h]

end State

/-! ## Words -/

/-- A word with its bits moved towards the low end, those that fall out coming
back in at the top. -/
def rotate (x : UInt32) (n : UInt32) : UInt32 :=
  (x >>> n) ||| (x <<< (32 - n))

/-- The word of four bytes, most significant first. -/
def wordOf (a b c d : UInt8) : UInt32 :=
  (a.toUInt32 <<< 24) ||| (b.toUInt32 <<< 16) ||| (c.toUInt32 <<< 8) ||| d.toUInt32

/-- The words of a sequence of bytes. Up to three bytes left over are dropped. -/
def wordsOf : List UInt8 → List UInt32
  | a :: b :: c :: d :: bytes => wordOf a b c d :: wordsOf bytes
  | _ => []

/-- The bytes of a word, most significant first. -/
def bytesOf (x : UInt32) : List UInt8 :=
  [(x >>> 24).toUInt8, (x >>> 16).toUInt8, (x >>> 8).toUInt8, x.toUInt8]

/-! ## Padding -/

/-- The length of a message in bits as eight bytes, most significant first. -/
def lengthBytes (size : Nat) : List UInt8 :=
  [56, 48, 40, 32, 24, 16, 8, 0].map fun shift => UInt8.ofNat ((8 * size) >>> shift)

/-- How many zeros bring a message with the byte after it and its length to a
whole number of blocks. -/
def paddingZeros (size : Nat) : Nat :=
  (119 - size % 64) % 64

/-- A message padded to whole blocks. -/
def pad (message : List UInt8) : List UInt8 :=
  message ++ 0x80 :: (List.replicate (paddingZeros message.length) 0 ++ lengthBytes message.length)

theorem length_pad (message : List UInt8) : (pad message).length % 64 = 0 := by
  simp only [pad, paddingZeros, lengthBytes, List.length_append, List.length_cons,
    List.length_replicate, List.length_map, List.length_nil]
  omega

/-! ## Rounds -/

/-- The word that follows sixteen words of the expanded block. -/
def nextWord (window : List UInt32) : UInt32 :=
  let early := window.getD 1 0
  let late := window.getD 14 0
  (rotate late 17 ^^^ rotate late 19 ^^^ (late >>> 10)) + window.getD 9 0 +
    (rotate early 7 ^^^ rotate early 18 ^^^ (early >>> 3)) + window.getD 0 0

/-- The next words of an expanded block, given the last sixteen not yet used. -/
def expand : Nat → List UInt32 → List UInt32
  | 0, _ => []
  | n + 1, window => window.headD 0 :: expand n (window.tail ++ [nextWord window])

/-- One round. -/
def round (s : State) (constant word : UInt32) : State :=
  let choice := (s.e &&& s.f) ^^^ (~~~s.e &&& s.g)
  let majority := (s.a &&& s.b) ^^^ (s.a &&& s.c) ^^^ (s.b &&& s.c)
  let x := s.h + (rotate s.e 6 ^^^ rotate s.e 11 ^^^ rotate s.e 25) + choice + constant + word
  let y := (rotate s.a 2 ^^^ rotate s.a 13 ^^^ rotate s.a 22) + majority
  ⟨x + y, s.a, s.b, s.c, s.d + x, s.e, s.f, s.g⟩

/-- The state after a block. -/
def compress (s : State) (block : List UInt8) : State :=
  s.add ((roundConstants.zip (expand 64 (wordsOf block))).foldl
    (fun t (constant, word) => round t constant word) s)

/-- The state after all blocks of a padded message. -/
def absorb (s : State) (bytes : List UInt8) : State :=
  if bytes.isEmpty then s else absorb (compress s (bytes.take 64)) (bytes.drop 64)
termination_by bytes.length
decreasing_by
  cases bytes with
  | nil => contradiction
  | cons b bs => simp only [List.length_drop, List.length_cons]; omega

/-- The SHA-256 hash of a message, 32 bytes. -/
def sha256 (message : List UInt8) : List UInt8 :=
  (absorb .initial (pad message)).words.flatMap bytesOf

/-! ## Text -/

/-- Bytes in hexadecimal, two digits each. -/
def hex (bytes : List UInt8) : String :=
  String.ofList (bytes.flatMap fun b => [Number.hexDigitChar (b.toNat / 16), Number.hexDigitChar (b.toNat % 16)])

end PropSchema.Digest
