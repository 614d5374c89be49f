import Depot.Bytes
/-!
# SHA-256

The digest of FIPS 180-4, which seals the lines of a posted document. The message schedule is a
window of sixteen words that moves by one word per round, so no word is ever looked up by a
computed index.
-/

namespace Depot.Sha256

/-! ## Words -/

/-- Rotate a word to the right by `n` bits, for `n` from 1 to 31. -/
def rotr (x n : UInt32) : UInt32 := (x >>> n) ||| (x <<< (32 - n))

/-- The mixing function of the first word of the state. -/
def bigSigma0 (x : UInt32) : UInt32 := rotr x 2 ^^^ rotr x 13 ^^^ rotr x 22

/-- The mixing function of the fifth word of the state. -/
def bigSigma1 (x : UInt32) : UInt32 := rotr x 6 ^^^ rotr x 11 ^^^ rotr x 25

/-- The mixing function of the second word of a window. -/
def smallSigma0 (x : UInt32) : UInt32 := rotr x 7 ^^^ rotr x 18 ^^^ (x >>> 3)

/-- The mixing function of the fifteenth word of a window. -/
def smallSigma1 (x : UInt32) : UInt32 := rotr x 17 ^^^ rotr x 19 ^^^ (x >>> 10)

/-- The bits of `y` where `x` is set, those of `z` elsewhere. -/
def choose (x y z : UInt32) : UInt32 := (x &&& y) ^^^ (~~~x &&& z)

/-- The bit that at least two of the words have. -/
def majority (x y z : UInt32) : UInt32 := (x &&& y) ^^^ (x &&& z) ^^^ (y &&& z)

/-! ## Compression -/

/-- The chaining value, eight words. -/
structure State where
  (a b c d e f g h : UInt32)
  deriving DecidableEq, Repr

/-- The chaining value before the first block. -/
def initial : State :=
  ⟨0x6a09e667, 0xbb67ae85, 0x3c6ef372, 0xa54ff53a, 0x510e527f, 0x9b05688c, 0x1f83d9ab, 0x5be0cd19⟩

/-- The constants of the sixty-four rounds. -/
def constants : List UInt32 :=
  [0x428a2f98, 0x71374491, 0xb5c0fbcf, 0xe9b5dba5, 0x3956c25b, 0x59f111f1, 0x923f82a4, 0xab1c5ed5,
   0xd807aa98, 0x12835b01, 0x243185be, 0x550c7dc3, 0x72be5d74, 0x80deb1fe, 0x9bdc06a7, 0xc19bf174,
   0xe49b69c1, 0xefbe4786, 0x0fc19dc6, 0x240ca1cc, 0x2de92c6f, 0x4a7484aa, 0x5cb0a9dc, 0x76f988da,
   0x983e5152, 0xa831c66d, 0xb00327c8, 0xbf597fc7, 0xc6e00bf3, 0xd5a79147, 0x06ca6351, 0x14292967,
   0x27b70a85, 0x2e1b2138, 0x4d2c6dfc, 0x53380d13, 0x650a7354, 0x766a0abb, 0x81c2c92e, 0x92722c85,
   0xa2bfe8a1, 0xa81a664b, 0xc24b8b70, 0xc76c51a3, 0xd192e819, 0xd6990624, 0xf40e3585, 0x106aa070,
   0x19a4c116, 0x1e376c08, 0x2748774c, 0x34b0bcb5, 0x391c0cb3, 0x4ed8aa4a, 0x5b9cca4f, 0x682e6ff3,
   0x748f82ee, 0x78a5636f, 0x84c87814, 0x8cc70208, 0x90befffa, 0xa4506ceb, 0xbef9a3f7, 0xc67178f2]

/-- Sixteen consecutive words of the message schedule. -/
abbrev Window := Vector UInt32 16

/-- The window one word further on. -/
def Window.next (w : Window) : Window :=
  let word := smallSigma1 w[14] + w[9] + smallSigma0 w[1] + w[0]
  Vector.ofFn fun i => if h : i.val + 1 < 16 then w[i.val + 1] else word

/-- One round with constant `k` and schedule word `word`. -/
def State.round (s : State) (k word : UInt32) : State :=
  let t1 := s.h + bigSigma1 s.e + choose s.e s.f s.g + k + word
  let t2 := bigSigma0 s.a + majority s.a s.b s.c
  ⟨t1 + t2, s.a, s.b, s.c, s.d + t1, s.e, s.f, s.g⟩

/-- One round per constant, the window moving along. -/
def State.rounds (s : State) (w : Window) : List UInt32 → State
  | [] => s
  | k :: ks => (s.round k w[0]).rounds w.next ks

/-- Word-wise sum. -/
def State.add (s t : State) : State :=
  ⟨s.a + t.a, s.b + t.b, s.c + t.c, s.d + t.d, s.e + t.e, s.f + t.f, s.g + t.g, s.h + t.h⟩

/-- The words of a 64-byte block. -/
def window (block : Bytes) : Window :=
  Vector.ofFn fun i => UInt32.ofNat (Bytes.ofBigEndian ((block.drop (4 * i.val)).take 4))

/-- Chain one block. -/
def State.compress (s : State) (block : Bytes) : State := s.add (s.rounds (window block) constants)

/-! ## Messages -/

/-- The message with a one bit, zeros up to eight bytes short of a block, and its length in bits. -/
def pad (message : Bytes) : Bytes :=
  message ++ 0x80 :: List.replicate ((119 - message.length % 64) % 64) 0 ++
    Bytes.bigEndian 8 (message.length * 8)

/-- Chain the first `n` blocks. -/
def State.blocks (s : State) : Nat → Bytes → State
  | 0, _ => s
  | n + 1, b => (s.compress (b.take 64)).blocks n (b.drop 64)

/-- The bytes of the chaining value. -/
def State.bytes (s : State) : Bytes :=
  [s.a, s.b, s.c, s.d, s.e, s.f, s.g, s.h].flatMap fun w => Bytes.bigEndian 4 w.toNat

end Sha256

/-- The SHA-256 digest of a byte string, 32 bytes. -/
def sha256 (message : Bytes) : Bytes :=
  let padded := Sha256.pad message
  (Sha256.initial.blocks (padded.length / 64) padded).bytes

end Depot
