import DocLineage.Text.Hex

/-!
# The SHA-256 digest

The digest by which a configuration is identified in a report. A message is padded to whole blocks
of sixty-four bytes; every block is stirred into a state of eight words.

## Main definitions

* `Sha256.padded` — the message with its end mark and its length
* `Sha256.schedule` — the sixty-four words of a block
* `Sha256.compress` — a block stirred into the state
* `Sha256.hexDigest` — the digest of a text as hexadecimal digits
-/

namespace DocLineage.Sha256

/-- The first thirty-two bits of the fractional parts of the cube roots of the first sixty-four
primes. -/
def roundConstants : Array UInt32 := #[
    0x428a2f98, 0x71374491, 0xb5c0fbcf, 0xe9b5dba5, 0x3956c25b, 0x59f111f1, 0x923f82a4,
    0xab1c5ed5, 0xd807aa98, 0x12835b01, 0x243185be, 0x550c7dc3, 0x72be5d74, 0x80deb1fe,
    0x9bdc06a7, 0xc19bf174, 0xe49b69c1, 0xefbe4786, 0x0fc19dc6, 0x240ca1cc, 0x2de92c6f,
    0x4a7484aa, 0x5cb0a9dc, 0x76f988da, 0x983e5152, 0xa831c66d, 0xb00327c8, 0xbf597fc7,
    0xc6e00bf3, 0xd5a79147, 0x06ca6351, 0x14292967, 0x27b70a85, 0x2e1b2138, 0x4d2c6dfc,
    0x53380d13, 0x650a7354, 0x766a0abb, 0x81c2c92e, 0x92722c85, 0xa2bfe8a1, 0xa81a664b,
    0xc24b8b70, 0xc76c51a3, 0xd192e819, 0xd6990624, 0xf40e3585, 0x106aa070, 0x19a4c116,
    0x1e376c08, 0x2748774c, 0x34b0bcb5, 0x391c0cb3, 0x4ed8aa4a, 0x5b9cca4f, 0x682e6ff3,
    0x748f82ee, 0x78a5636f, 0x84c87814, 0x8cc70208, 0x90befffa, 0xa4506ceb, 0xbef9a3f7,
    0xc67178f2]

/-- The eight words that digestion starts from: the same bits of the square roots of the first
eight primes. -/
def initialState : Vector UInt32 8 := #v[
    0x6a09e667, 0xbb67ae85, 0x3c6ef372, 0xa54ff53a, 0x510e527f, 0x9b05688c, 0x1f83d9ab,
    0x5be0cd19]

/-- Rotation to the right. -/
def rotate (x : UInt32) (n : UInt32) : UInt32 := (x >>> n) ||| (x <<< (32 - n))

/-- The number of zero bytes between the end mark and the length. -/
def zeroCount (size : Nat) : Nat := (119 - size % 64) % 64

/-- The length of a message in bits, as eight bytes from the most significant one. -/
def lengthBytes (size : Nat) : Array UInt8 :=
  Array.ofFn fun i : Fin 8 => UInt8.ofNat (8 * size / Nat.pow 256 (7 - i.val))

/-- The message, an end mark, zeros, and the length: a whole number of blocks. -/
def padded (message : Array UInt8) : Array UInt8 :=
  message ++ #[0x80] ++ Array.replicate (zeroCount message.size) 0 ++ lengthBytes message.size

/-- The four bytes from a position as one word. -/
def wordAt (bytes : Array UInt8) (i : Nat) : UInt32 :=
  let byte := fun j => (bytes.getD (i + j) 0).toUInt32
  (byte 0 <<< 24) ||| (byte 1 <<< 16) ||| (byte 2 <<< 8) ||| byte 3

/-- The next word of a schedule, from the last sixteen. -/
def nextWord (w : Array UInt32) : UInt32 :=
  let back := fun n => w.getD (w.size - n) 0
  let a := back 15
  let b := back 2
  back 16 + (rotate a 7 ^^^ rotate a 18 ^^^ (a >>> 3)) + back 7 +
    (rotate b 17 ^^^ rotate b 19 ^^^ (b >>> 10))

/-- The schedule with further words appended. -/
def extend (w : Array UInt32) : Nat → Array UInt32
  | 0 => w
  | n + 1 => extend (w.push (nextWord w)) n

/-- The words of the block at a position: its own sixteen and forty-eight that follow from them. -/
def schedule (bytes : Array UInt8) (start : Nat) : Array UInt32 :=
  extend (Array.ofFn fun i : Fin 16 => wordAt bytes (start + 4 * i.val)) 48

/-- One round: the words move up by one place, and the first and the fifth are stirred. -/
def stir (s : Vector UInt32 8) (constant word : UInt32) : Vector UInt32 8 :=
  let a := s[0]
  let e := s[4]
  let choice := (e &&& s[5]) ^^^ (~~~e &&& s[6])
  let majority := (a &&& s[1]) ^^^ (a &&& s[2]) ^^^ (s[1] &&& s[2])
  let t := s[7] + (rotate e 6 ^^^ rotate e 11 ^^^ rotate e 25) + choice + constant + word
  let u := (rotate a 2 ^^^ rotate a 13 ^^^ rotate a 22) + majority
  #v[t + u, a, s[1], s[2], s[3] + t, e, s[5], s[6]]

/-- The state after the block at a position. -/
def compress (bytes : Array UInt8) (state : Vector UInt32 8) (start : Nat) : Vector UInt32 8 :=
  let words := schedule bytes start
  let stirred := (List.range 64).foldl
    (fun s i => stir s (roundConstants.getD i 0) (words.getD i 0)) state
  Vector.zipWith (· + ·) state stirred

/-- The state after the first blocks. -/
def digestBlocks (bytes : Array UInt8) : Nat → Vector UInt32 8
  | 0 => initialState
  | n + 1 => compress bytes (digestBlocks bytes n) (64 * n)

/-- The eight words of the digest of a message. -/
def digest (message : Array UInt8) : Vector UInt32 8 :=
  let bytes := padded message
  digestBlocks bytes (bytes.size / 64)

/-- The digest of the bytes of a text, as sixty-four hexadecimal digits. -/
def hexDigest (s : String) : String :=
  String.ofList ((digest s.toUTF8.data).toList.flatMap fun w => Text.hexDigits 8 w.toNat)

end DocLineage.Sha256
