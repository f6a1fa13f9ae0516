/-
SHA-256 (FIPS 180-4) over lists of bytes, as a function that runs.

Words are naturals below `2^32`; every operation that could leave that range
reduces again. A block's message schedule is not tabulated: `rounds` carries a
window of the last sixteen words and pushes the next one as it consumes the
first. Nothing here claims the function is hard to invert or to collide: all
that is proved is that a digest is 32 bytes (`sha256_length`), and what a
development needs of collisions it assumes of the messages it hashes.
-/
import Mathlib.Data.List.Basic

namespace Lib

/-! ## Words -/

def add32 (x y : Nat) : Nat := (x + y) % 4294967296

def rotr32 (x n : Nat) : Nat := (x >>> n) ||| ((x <<< (32 - n)) % 4294967296)

def bigSigma0 (x : Nat) : Nat := rotr32 x 2 ^^^ rotr32 x 13 ^^^ rotr32 x 22

def bigSigma1 (x : Nat) : Nat := rotr32 x 6 ^^^ rotr32 x 11 ^^^ rotr32 x 25

def smallSigma0 (x : Nat) : Nat := rotr32 x 7 ^^^ rotr32 x 18 ^^^ (x >>> 3)

def smallSigma1 (x : Nat) : Nat := rotr32 x 17 ^^^ rotr32 x 19 ^^^ (x >>> 10)

def choose32 (x y z : Nat) : Nat := (x &&& y) ^^^ ((x ^^^ 4294967295) &&& z)

def majority32 (x y z : Nat) : Nat := (x &&& y) ^^^ (x &&& z) ^^^ (y &&& z)

/-- The eight working words, and the chaining value between blocks. -/
structure Words where
  a : Nat
  b : Nat
  c : Nat
  d : Nat
  e : Nat
  f : Nat
  g : Nat
  h : Nat

/-- The fractional parts of the square roots of the first eight primes. -/
def initialWords : Words :=
  ⟨0x6a09e667, 0xbb67ae85, 0x3c6ef372, 0xa54ff53a, 0x510e527f, 0x9b05688c, 0x1f83d9ab, 0x5be0cd19⟩

/-- The fractional parts of the cube roots of the first sixty-four primes. -/
def roundConstants : List Nat :=
  [0x428a2f98, 0x71374491, 0xb5c0fbcf, 0xe9b5dba5, 0x3956c25b, 0x59f111f1, 0x923f82a4, 0xab1c5ed5,
   0xd807aa98, 0x12835b01, 0x243185be, 0x550c7dc3, 0x72be5d74, 0x80deb1fe, 0x9bdc06a7, 0xc19bf174,
   0xe49b69c1, 0xefbe4786, 0x0fc19dc6, 0x240ca1cc, 0x2de92c6f, 0x4a7484aa, 0x5cb0a9dc, 0x76f988da,
   0x983e5152, 0xa831c66d, 0xb00327c8, 0xbf597fc7, 0xc6e00bf3, 0xd5a79147, 0x06ca6351, 0x14292967,
   0x27b70a85, 0x2e1b2138, 0x4d2c6dfc, 0x53380d13, 0x650a7354, 0x766a0abb, 0x81c2c92e, 0x92722c85,
   0xa2bfe8a1, 0xa81a664b, 0xc24b8b70, 0xc76c51a3, 0xd192e819, 0xd6990624, 0xf40e3585, 0x106aa070,
   0x19a4c116, 0x1e376c08, 0x2748774c, 0x34b0bcb5, 0x391c0cb3, 0x4ed8aa4a, 0x5b9cca4f, 0x682e6ff3,
   0x748f82ee, 0x78a5636f, 0x84c87814, 0x8cc70208, 0x90befffa, 0xa4506ceb, 0xbef9a3f7, 0xc67178f2]

/-! ## Compression -/

def round (r : Words) (k w : Nat) : Words :=
  let t₁ := add32 (add32 (add32 (add32 r.h (bigSigma1 r.e)) (choose32 r.e r.f r.g)) k) w
  let t₂ := add32 (bigSigma0 r.a) (majority32 r.a r.b r.c)
  ⟨add32 t₁ t₂, r.a, r.b, r.c, add32 r.d t₁, r.e, r.f, r.g⟩

/-- The schedule word after a window of sixteen. -/
def nextWord (w : List Nat) : Nat :=
  add32 (add32 (add32 (smallSigma1 (w.getD 14 0)) (w.getD 9 0)) (smallSigma0 (w.getD 1 0))) (w.getD 0 0)

def rounds : List Nat → List Nat → Words → Words
  | [], _, r => r
  | k :: ks, w, r => rounds ks (w.tail ++ [nextWord w]) (round r k (w.getD 0 0))

def compress (h : Words) (block : List Nat) : Words :=
  let r := rounds roundConstants block h
  ⟨add32 h.a r.a, add32 h.b r.b, add32 h.c r.c, add32 h.d r.d,
   add32 h.e r.e, add32 h.f r.f, add32 h.g r.g, add32 h.h r.h⟩

/-- `n` blocks of sixteen words each. -/
def compressBlocks : Nat → List Nat → Words → Words
  | 0, _, h => h
  | n + 1, ws, h => compressBlocks n (ws.drop 16) (compress h (ws.take 16))

/-! ## Bytes in and out -/

def toWords : List UInt8 → List Nat
  | b₀ :: b₁ :: b₂ :: b₃ :: rest =>
    (b₀.toNat * 16777216 + b₁.toNat * 65536 + b₂.toNat * 256 + b₃.toNat) :: toWords rest
  | _ => []

/-- The low `n` bytes of `v`, most significant first. -/
def bigEndian : Nat → Nat → List UInt8
  | 0, _ => []
  | n + 1, v => bigEndian n (v / 256) ++ [UInt8.ofNat (v % 256)]

/-- A one bit, zeros up to eight bytes short of a block, the length in bits. -/
def pad (msg : List UInt8) : List UInt8 :=
  msg ++ [0x80] ++ List.replicate ((119 - msg.length % 64) % 64) 0 ++ bigEndian 8 (8 * msg.length)

def sha256 (msg : List UInt8) : List UInt8 :=
  let p := pad msg
  let h := compressBlocks (p.length / 64) (toWords p) initialWords
  bigEndian 4 h.a ++ bigEndian 4 h.b ++ bigEndian 4 h.c ++ bigEndian 4 h.d ++
    bigEndian 4 h.e ++ bigEndian 4 h.f ++ bigEndian 4 h.g ++ bigEndian 4 h.h

theorem bigEndian_length (n v : Nat) : (bigEndian n v).length = n := by
  induction n generalizing v with
  | zero => rfl
  | succ n ih => simp [bigEndian, ih]

/-- A digest is 32 bytes, whatever the message. -/
theorem sha256_length (msg : List UInt8) : (sha256 msg).length = 32 := by
  simp [sha256, bigEndian_length]

-- The two-block test message of FIPS 180-4, so that the padding is run too.
example : (sha256 "abcdbcdecdefdefgefghfghighijhijkijkljklmklmnlmnomnopnopq".toUTF8.data.toList).take 8 =
    [0x24, 0x8d, 0x6a, 0x61, 0xd2, 0x06, 0x38, 0xb8] := by decide +kernel

end Lib
