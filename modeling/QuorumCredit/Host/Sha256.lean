import Mathlib.Algebra.Order.Ring.Int
/-!
# SHA-256

The hash function of FIPS 180-4 on byte strings: the message padded to blocks of
64 bytes, each block expanded to 64 words and mixed into eight words of state.
-/

namespace Host.Sha256

/-- The fractional parts of the cube roots of the first 64 primes. -/
def roundConstants : List (BitVec 32) :=
  [0x428a2f98, 0x71374491, 0xb5c0fbcf, 0xe9b5dba5, 0x3956c25b, 0x59f111f1, 0x923f82a4, 0xab1c5ed5,
    0xd807aa98, 0x12835b01, 0x243185be, 0x550c7dc3, 0x72be5d74, 0x80deb1fe, 0x9bdc06a7, 0xc19bf174,
    0xe49b69c1, 0xefbe4786, 0x0fc19dc6, 0x240ca1cc, 0x2de92c6f, 0x4a7484aa, 0x5cb0a9dc, 0x76f988da,
    0x983e5152, 0xa831c66d, 0xb00327c8, 0xbf597fc7, 0xc6e00bf3, 0xd5a79147, 0x06ca6351, 0x14292967,
    0x27b70a85, 0x2e1b2138, 0x4d2c6dfc, 0x53380d13, 0x650a7354, 0x766a0abb, 0x81c2c92e, 0x92722c85,
    0xa2bfe8a1, 0xa81a664b, 0xc24b8b70, 0xc76c51a3, 0xd192e819, 0xd6990624, 0xf40e3585, 0x106aa070,
    0x19a4c116, 0x1e376c08, 0x2748774c, 0x34b0bcb5, 0x391c0cb3, 0x4ed8aa4a, 0x5b9cca4f, 0x682e6ff3,
    0x748f82ee, 0x78a5636f, 0x84c87814, 0x8cc70208, 0x90befffa, 0xa4506ceb, 0xbef9a3f7, 0xc67178f2]

/-- Eight words of state. -/
structure State where
  (a b c d e f g h : BitVec 32)

/-- The fractional parts of the square roots of the first eight primes. -/
def State.initial : State :=
  ⟨0x6a09e667, 0xbb67ae85, 0x3c6ef372, 0xa54ff53a, 0x510e527f, 0x9b05688c, 0x1f83d9ab, 0x5be0cd19⟩

def bigSigma0 (x : BitVec 32) : BitVec 32 := x.rotateRight 2 ^^^ x.rotateRight 13 ^^^ x.rotateRight 22
def bigSigma1 (x : BitVec 32) : BitVec 32 := x.rotateRight 6 ^^^ x.rotateRight 11 ^^^ x.rotateRight 25
def smallSigma0 (x : BitVec 32) : BitVec 32 := x.rotateRight 7 ^^^ x.rotateRight 18 ^^^ x >>> 3
def smallSigma1 (x : BitVec 32) : BitVec 32 := x.rotateRight 17 ^^^ x.rotateRight 19 ^^^ x >>> 10

/-- One round with the sum of its constant and its word. -/
def State.round (s : State) (kw : BitVec 32) : State :=
  let t1 := s.h + bigSigma1 s.e + ((s.e &&& s.f) ^^^ (~~~s.e &&& s.g)) + kw
  let t2 := bigSigma0 s.a + ((s.a &&& s.b) ^^^ (s.a &&& s.c) ^^^ (s.b &&& s.c))
  ⟨t1 + t2, s.a, s.b, s.c, s.d + t1, s.e, s.f, s.g⟩

/-- The words of the schedule, newest first, with `n` more of them. -/
def extend : Nat → List (BitVec 32) → List (BitVec 32)
  | 0, ws => ws
  | n + 1, ws =>
    extend n ((smallSigma1 (ws.getD 1 0) + ws.getD 6 0 + smallSigma0 (ws.getD 14 0) + ws.getD 15 0) :: ws)

/-- A block of 16 words mixed into the state. -/
def State.compress (s : State) (block : List (BitVec 32)) : State :=
  let schedule := (extend 48 block.reverse).reverse
  let t := (roundConstants.zipWith (· + ·) schedule).foldl State.round s
  ⟨s.a + t.a, s.b + t.b, s.c + t.c, s.d + t.d, s.e + t.e, s.f + t.f, s.g + t.g, s.h + t.h⟩

/-- The big-endian words of a byte string. -/
def toWords : List UInt8 → List (BitVec 32)
  | a :: b :: c :: d :: rest =>
    BitVec.ofNat 32 (((a.toNat * 256 + b.toNat) * 256 + c.toNat) * 256 + d.toNat) :: toWords rest
  | _ => []

/-- `n` mixed-in blocks. -/
def State.absorb (s : State) : Nat → List (BitVec 32) → State
  | 0, _ => s
  | n + 1, ws => (s.compress (ws.take 16)).absorb n (ws.drop 16)

/-- The padding of a message of `n` bytes: a one bit, zeros, and the length in bits. -/
def padding (n : Nat) : List UInt8 :=
  0x80 :: List.replicate ((119 - n % 64) % 64) 0 ++ (List.range 8).map fun i => .ofNat (n * 8 / 256 ^ (7 - i))

/-- The digest of a byte string. -/
def digest (bytes : List UInt8) : Vector UInt8 32 :=
  let padded := bytes ++ padding bytes.length
  let s := State.initial.absorb (padded.length / 64) (toWords padded)
  let words := [s.a, s.b, s.c, s.d, s.e, s.f, s.g, s.h]
  .ofFn fun i => .ofNat ((words.getD (i.val / 4) 0).toNat / 256 ^ (3 - i.val % 4))

end Host.Sha256
