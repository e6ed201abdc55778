/-
SHA-256.

The message is padded to blocks of 64 bytes, each block is expanded to a
schedule of 64 words, and 64 rounds mix the schedule into eight chaining
words.  Words are natural numbers below `2 ^ 32`, so that the kernel can run
the function on concrete messages.

Nothing proved elsewhere rests on how the digest is computed: developments
that need a hash take it as a parameter and say with `CollisionFree` that no
two of the strings they hash collide.  The function is what such a parameter
is instantiated with.
-/
import IgnitePay.Lib.Bytes

namespace Sha256

/-- Round constants. -/
def roundConstants : List ℕ :=
  [0x428a2f98, 0x71374491, 0xb5c0fbcf, 0xe9b5dba5, 0x3956c25b, 0x59f111f1, 0x923f82a4, 0xab1c5ed5,
   0xd807aa98, 0x12835b01, 0x243185be, 0x550c7dc3, 0x72be5d74, 0x80deb1fe, 0x9bdc06a7, 0xc19bf174,
   0xe49b69c1, 0xefbe4786, 0x0fc19dc6, 0x240ca1cc, 0x2de92c6f, 0x4a7484aa, 0x5cb0a9dc, 0x76f988da,
   0x983e5152, 0xa831c66d, 0xb00327c8, 0xbf597fc7, 0xc6e00bf3, 0xd5a79147, 0x06ca6351, 0x14292967,
   0x27b70a85, 0x2e1b2138, 0x4d2c6dfc, 0x53380d13, 0x650a7354, 0x766a0abb, 0x81c2c92e, 0x92722c85,
   0xa2bfe8a1, 0xa81a664b, 0xc24b8b70, 0xc76c51a3, 0xd192e819, 0xd6990624, 0xf40e3585, 0x106aa070,
   0x19a4c116, 0x1e376c08, 0x2748774c, 0x34b0bcb5, 0x391c0cb3, 0x4ed8aa4a, 0x5b9cca4f, 0x682e6ff3,
   0x748f82ee, 0x78a5636f, 0x84c87814, 0x8cc70208, 0x90befffa, 0xa4506ceb, 0xbef9a3f7, 0xc67178f2]

/-- The eight chaining words. -/
structure State where
  a : ℕ
  b : ℕ
  c : ℕ
  d : ℕ
  e : ℕ
  f : ℕ
  g : ℕ
  h : ℕ

def initialState : State :=
  ⟨0x6a09e667, 0xbb67ae85, 0x3c6ef372, 0xa54ff53a, 0x510e527f, 0x9b05688c, 0x1f83d9ab, 0x5be0cd19⟩

/-- Right rotation of a 32-bit word. -/
def rotr (x n : ℕ) : ℕ := (x >>> n ||| x <<< (32 - n)) % 2 ^ 32

def bigSigma0 (x : ℕ) : ℕ := rotr x 2 ^^^ rotr x 13 ^^^ rotr x 22
def bigSigma1 (x : ℕ) : ℕ := rotr x 6 ^^^ rotr x 11 ^^^ rotr x 25
def smallSigma0 (x : ℕ) : ℕ := rotr x 7 ^^^ rotr x 18 ^^^ x >>> 3
def smallSigma1 (x : ℕ) : ℕ := rotr x 17 ^^^ rotr x 19 ^^^ x >>> 10

def ch (x y z : ℕ) : ℕ := (x &&& y) ^^^ ((2 ^ 32 - 1 - x) &&& z)
def maj (x y z : ℕ) : ℕ := (x &&& y) ^^^ (x &&& z) ^^^ (y &&& z)

/-- One round with schedule word `w` and round constant `k`. -/
def round (s : State) (k w : ℕ) : State :=
  let t1 := (s.h + bigSigma1 s.e + ch s.e s.f s.g + k + w) % 2 ^ 32
  let t2 := (bigSigma0 s.a + maj s.a s.b s.c) % 2 ^ 32
  ⟨(t1 + t2) % 2 ^ 32, s.a, s.b, s.c, (s.d + t1) % 2 ^ 32, s.e, s.f, s.g⟩

/-- The schedule, latest word first, extended by `n` words. -/
def extend : ℕ → List ℕ → List ℕ
  | 0, ws => ws
  | n + 1, ws =>
    extend n ((smallSigma1 (ws.getD 1 0) + ws.getD 6 0 + smallSigma0 (ws.getD 14 0)
      + ws.getD 15 0) % 2 ^ 32 :: ws)

/-- Big-endian words of a block. -/
def words : List UInt8 → List ℕ
  | a :: b :: c :: d :: rest =>
    (((a.toNat * 256 + b.toNat) * 256 + c.toNat) * 256 + d.toNat) :: words rest
  | _ => []

def schedule (block : List UInt8) : List ℕ := (extend 48 (words block).reverse).reverse

def compress (s : State) (block : List UInt8) : State :=
  let r := (roundConstants.zip (schedule block)).foldl (fun s kw => round s kw.1 kw.2) s
  ⟨(s.a + r.a) % 2 ^ 32, (s.b + r.b) % 2 ^ 32, (s.c + r.c) % 2 ^ 32, (s.d + r.d) % 2 ^ 32,
    (s.e + r.e) % 2 ^ 32, (s.f + r.f) % 2 ^ 32, (s.g + r.g) % 2 ^ 32, (s.h + r.h) % 2 ^ 32⟩

/-- Big-endian encoding of `x` on `w` bytes. -/
def beBytes (w x : ℕ) : List UInt8 := (Bytes.leBytes w x).reverse

/-- A one bit, zeros up to 8 bytes short of a block, and the length in bits. -/
def pad (msg : List UInt8) : List UInt8 :=
  msg ++ [0x80] ++ List.replicate ((119 - msg.length % 64) % 64) 0 ++ beBytes 8 (8 * msg.length)

/-- Compress the first `n` blocks. -/
def compressAll : ℕ → State → List UInt8 → State
  | 0, s, _ => s
  | n + 1, s, msg => compressAll n (compress s (msg.take 64)) (msg.drop 64)

def hashBytes (msg : List UInt8) : List UInt8 :=
  let s := compressAll ((pad msg).length / 64) initialState (pad msg)
  [s.a, s.b, s.c, s.d, s.e, s.f, s.g, s.h].flatMap (beBytes 4)

theorem length_hashBytes (msg : List UInt8) : (hashBytes msg).length = 32 := by
  simp [hashBytes, beBytes]

/-- `SHA256(msg)`. -/
def sha256 (msg : List UInt8) : Bytes 32 := ⟨hashBytes msg, length_hashBytes msg⟩

/-- No two of the byte strings in `known` have the same digest.  A hash of 32
bytes cannot be injective, so collision freedom is always about the strings
that somebody hashes. -/
def CollisionFree (sha : List UInt8 → Bytes 32) (known : Set (List UInt8)) : Prop :=
  Set.InjOn sha known

end Sha256
