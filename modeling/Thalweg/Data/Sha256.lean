import Mathlib.Data.List.Basic

/-!
# SHA-256

The hash function of FIPS 180-4 on byte sequences and the message authentication code over it. Words
are natural numbers below `2 ^ 32`, with the reduction written out, so that a digest can be
evaluated by the kernel.
-/

namespace Sha256

/-- Addition of 32-bit words. -/
def add (a b : Nat) : Nat := (a + b) % 4294967296

/-- Rotation of a 32-bit word to the right. -/
def rotr (n x : Nat) : Nat := (x >>> n) ||| ((x <<< (32 - n)) % 4294967296)

def ch (x y z : Nat) : Nat := (x &&& y) ^^^ ((x ^^^ 0xFFFFFFFF) &&& z)

def maj (x y z : Nat) : Nat := (x &&& y) ^^^ (x &&& z) ^^^ (y &&& z)

def bigSigma0 (x : Nat) : Nat := rotr 2 x ^^^ rotr 13 x ^^^ rotr 22 x

def bigSigma1 (x : Nat) : Nat := rotr 6 x ^^^ rotr 11 x ^^^ rotr 25 x

def smallSigma0 (x : Nat) : Nat := rotr 7 x ^^^ rotr 18 x ^^^ (x >>> 3)

def smallSigma1 (x : Nat) : Nat := rotr 17 x ^^^ rotr 19 x ^^^ (x >>> 10)

/-- The round constants. -/
def roundConstants : List Nat := [
  0x428a2f98, 0x71374491, 0xb5c0fbcf, 0xe9b5dba5, 0x3956c25b, 0x59f111f1, 0x923f82a4, 0xab1c5ed5,
  0xd807aa98, 0x12835b01, 0x243185be, 0x550c7dc3, 0x72be5d74, 0x80deb1fe, 0x9bdc06a7, 0xc19bf174,
  0xe49b69c1, 0xefbe4786, 0x0fc19dc6, 0x240ca1cc, 0x2de92c6f, 0x4a7484aa, 0x5cb0a9dc, 0x76f988da,
  0x983e5152, 0xa831c66d, 0xb00327c8, 0xbf597fc7, 0xc6e00bf3, 0xd5a79147, 0x06ca6351, 0x14292967,
  0x27b70a85, 0x2e1b2138, 0x4d2c6dfc, 0x53380d13, 0x650a7354, 0x766a0abb, 0x81c2c92e, 0x92722c85,
  0xa2bfe8a1, 0xa81a664b, 0xc24b8b70, 0xc76c51a3, 0xd192e819, 0xd6990624, 0xf40e3585, 0x106aa070,
  0x19a4c116, 0x1e376c08, 0x2748774c, 0x34b0bcb5, 0x391c0cb3, 0x4ed8aa4a, 0x5b9cca4f, 0x682e6ff3,
  0x748f82ee, 0x78a5636f, 0x84c87814, 0x8cc70208, 0x90befffa, 0xa4506ceb, 0xbef9a3f7, 0xc67178f2]

/-- The eight words of the chaining state. -/
structure State where
  a : Nat
  b : Nat
  c : Nat
  d : Nat
  e : Nat
  f : Nat
  g : Nat
  h : Nat

/-- The initial chaining state. -/
def initial : State :=
  ⟨0x6a09e667, 0xbb67ae85, 0x3c6ef372, 0xa54ff53a, 0x510e527f, 0x9b05688c, 0x1f83d9ab, 0x5be0cd19⟩

/-- The word that follows a window of sixteen words of the message schedule. -/
def nextWord (window : List Nat) : Nat :=
  add (add (smallSigma1 (window.getD 14 0)) (window.getD 9 0))
    (add (smallSigma0 (window.getD 1 0)) (window.getD 0 0))

/-- The first `n` words of the message schedule that starts with a window of sixteen words. -/
def schedule : Nat → List Nat → List Nat
  | 0, _ => []
  | n + 1, window => window.getD 0 0 :: schedule n (window.tail ++ [nextWord window])

/-- One round of the compression function. -/
def round (s : State) (kw : Nat × Nat) : State :=
  let t1 := add (add s.h (bigSigma1 s.e)) (add (ch s.e s.f s.g) (add kw.1 kw.2))
  let t2 := add (bigSigma0 s.a) (maj s.a s.b s.c)
  ⟨add t1 t2, s.a, s.b, s.c, add s.d t1, s.e, s.f, s.g⟩

/-- The compression function on one block of sixteen words. -/
def compress (s : State) (block : List Nat) : State :=
  let t := (roundConstants.zip (schedule 64 block)).foldl round s
  ⟨add s.a t.a, add s.b t.b, add s.c t.c, add s.d t.d, add s.e t.e, add s.f t.f, add s.g t.g,
    add s.h t.h⟩

/-- The compression function over the first `n` blocks of a list of words. -/
def compressBlocks : Nat → List Nat → State → State
  | 0, _, s => s
  | n + 1, words, s => compressBlocks n (words.drop 16) (compress s (words.take 16))

/-- The big-endian bytes of a 32-bit word. -/
def wordBytes (w : Nat) : List UInt8 :=
  [UInt8.ofNat (w / 16777216), UInt8.ofNat (w / 65536), UInt8.ofNat (w / 256), UInt8.ofNat w]

/-- The big-endian words of a byte sequence. -/
def bytesToWords : List UInt8 → List Nat
  | a :: b :: c :: d :: rest =>
    (((a.toNat * 256 + b.toNat) * 256 + c.toNat) * 256 + d.toNat) :: bytesToWords rest
  | _ => []

/-- The message with its padding: a one bit, zeros, and the length in bits. -/
def pad (message : List UInt8) : List UInt8 :=
  let n := message.length
  message ++ 0x80 :: List.replicate ((119 - n % 64) % 64) 0 ++
    wordBytes (n * 8 / 4294967296) ++ wordBytes (n * 8)

/-- The SHA-256 digest of a byte sequence. -/
def digest (message : List UInt8) : List UInt8 :=
  let words := bytesToWords (pad message)
  let s := compressBlocks (words.length / 16) words initial
  wordBytes s.a ++ wordBytes s.b ++ wordBytes s.c ++ wordBytes s.d ++ wordBytes s.e ++
    wordBytes s.f ++ wordBytes s.g ++ wordBytes s.h

@[simp] theorem length_wordBytes (w : Nat) : (wordBytes w).length = 4 := rfl

/-- A digest has 32 bytes. -/
@[simp] theorem length_digest (message : List UInt8) : (digest message).length = 32 := by
  simp [digest]

/-- The digest of the three bytes `abc`. -/
example : digest [0x61, 0x62, 0x63] = [
    0xba, 0x78, 0x16, 0xbf, 0x8f, 0x01, 0xcf, 0xea, 0x41, 0x41, 0x40, 0xde, 0x5d, 0xae, 0x22, 0x23,
    0xb0, 0x03, 0x61, 0xa3, 0x96, 0x17, 0x7a, 0x9c, 0xb4, 0x10, 0xff, 0x61, 0xf2, 0x00, 0x15, 0xad] := by
  decide +kernel

/-- HMAC-SHA256 of a message under a key. -/
def hmac (key message : List UInt8) : List UInt8 :=
  let short := if 64 < key.length then digest key else key
  let block := short ++ List.replicate (64 - short.length) 0
  digest (block.map (· ^^^ 0x5C) ++ digest (block.map (· ^^^ 0x36) ++ message))

@[simp] theorem length_hmac (key message : List UInt8) : (hmac key message).length = 32 := by
  simp [hmac]

/-- The code of the eight bytes `Hi There` under a key of twenty bytes. -/
example : hmac (List.replicate 20 0x0B) [0x48, 0x69, 0x20, 0x54, 0x68, 0x65, 0x72, 0x65] = [
    0xB0, 0x34, 0x4C, 0x61, 0xD8, 0xDB, 0x38, 0x53, 0x5C, 0xA8, 0xAF, 0xCE, 0xAF, 0x0B, 0xF1, 0x2B,
    0x88, 0x1D, 0xC2, 0x00, 0xC9, 0x83, 0x3D, 0xA7, 0x26, 0xE9, 0x37, 0x6C, 0x2E, 0x32, 0xCF, 0xF7] := by
  decide +kernel

end Sha256
