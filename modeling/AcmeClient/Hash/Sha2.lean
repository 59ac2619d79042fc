import AcmeClient.Octets

/-!
# The SHA-2 hash functions

FIPS 180-4: the message is padded to whole blocks, each block is expanded into a schedule of words,
and the rounds mix the schedule into eight chaining words. The 32-bit and the 64-bit family differ
in numbers only, which `Variant` collects.

* `Sha2.Variant`: rotation amounts and round constants of a family;
* `Sha2.compress`: one block;
* `sha224`, `sha256`, `sha384`, `sha512`.
-/

namespace AcmeClient

namespace Sha2

/-- The numbers in which the two families differ; `w` is the width of a word in bits. -/
structure Variant (w : Nat) where
  /-- Rotation amounts of the function applied to the first chaining word. -/
  upper : Nat × Nat × Nat
  /-- Rotation amounts of the function applied to the fifth chaining word. -/
  lower : Nat × Nat × Nat
  /-- Two rotations and a shift, applied to the word fifteen places back. -/
  old : Nat × Nat × Nat
  /-- Two rotations and a shift, applied to the word two places back. -/
  recent : Nat × Nat × Nat
  /-- The round constants, one for each round. -/
  constants : List (BitVec w)

/-- Exclusive or of three rotations. -/
def rotations {w : Nat} (r : Nat × Nat × Nat) (x : BitVec w) : BitVec w :=
  x.rotateRight r.1 ^^^ x.rotateRight r.2.1 ^^^ x.rotateRight r.2.2

/-- Exclusive or of two rotations and a shift. -/
def rotationsShift {w : Nat} (r : Nat × Nat × Nat) (x : BitVec w) : BitVec w :=
  x.rotateRight r.1 ^^^ x.rotateRight r.2.1 ^^^ x >>> r.2.2

/-- Append one word to the message schedule. -/
def extend {w : Nat} (v : Variant w) (s : Array (BitVec w)) : Array (BitVec w) :=
  let back := fun k => s.getD (s.size - k) 0
  s.push (rotationsShift v.recent (back 2) + back 7 + rotationsShift v.old (back 15) + back 16)

/-- The message schedule of a block of sixteen words. -/
def schedule {w : Nat} (v : Variant w) (block : List (BitVec w)) : List (BitVec w) :=
  ((List.range (v.constants.length - 16)).foldl (fun s _ => extend v s) block.toArray).toList

/-- The eight chaining words. -/
structure Chain (w : Nat) where
  a : BitVec w
  b : BitVec w
  c : BitVec w
  d : BitVec w
  e : BitVec w
  f : BitVec w
  g : BitVec w
  h : BitVec w

/-- One round with schedule word `x` and constant `k`. -/
def round {w : Nat} (v : Variant w) (s : Chain w) (k x : BitVec w) : Chain w :=
  let choice := (s.e &&& s.f) ^^^ (~~~s.e &&& s.g)
  let majority := (s.a &&& s.b) ^^^ (s.a &&& s.c) ^^^ (s.b &&& s.c)
  let t := s.h + rotations v.lower s.e + choice + k + x
  ⟨t + rotations v.upper s.a + majority, s.a, s.b, s.c, s.d + t, s.e, s.f, s.g⟩

/-- Mix one block into the chaining words. -/
def compress {w : Nat} (v : Variant w) (s : Chain w) (block : List (BitVec w)) : Chain w :=
  let t := (v.constants.zip (schedule v block)).foldl (fun t p => round v t p.1 p.2) s
  ⟨s.a + t.a, s.b + t.b, s.c + t.c, s.d + t.d, s.e + t.e, s.f + t.f, s.g + t.g, s.h + t.h⟩

/-- The message followed by a one bit, zero bits and its length in bits, in blocks of sixteen
words of `n` octets. -/
def pad (n : Nat) (m : Octets) : Octets :=
  let used := (m.length + 1 + 2 * n) % (16 * n)
  m ++ 0x80 :: List.replicate ((16 * n - used) % (16 * n)) 0
    ++ Octets.ofNatWidth (2 * n) (8 * m.length)

/-- The words of a block of octets. -/
def words (w : Nat) (b : Octets) : List (BitVec w) :=
  (b.blocks (w / 8)).map fun x => BitVec.ofNat w x.toNat

/-- The eight chaining words as octets. -/
def Chain.octets {w : Nat} (s : Chain w) : Octets :=
  [s.a, s.b, s.c, s.d, s.e, s.f, s.g, s.h].flatMap fun x => Octets.ofNatWidth (w / 8) x.toNat

/-- The hash value of a message before truncation. -/
def digest {w : Nat} (v : Variant w) (start : Chain w) (m : Octets) : Octets :=
  let chunks := (pad (w / 8) m).blocks (2 * w)
  (chunks.foldl (fun s b => compress v s (words w b)) start).octets

/-- The family with words of 32 bits. -/
def narrow : Variant 32 where
  upper := (2, 13, 22)
  lower := (6, 11, 25)
  old := (7, 18, 3)
  recent := (17, 19, 10)
  constants := [
    0x428a2f98, 0x71374491, 0xb5c0fbcf, 0xe9b5dba5, 0x3956c25b, 0x59f111f1,
    0x923f82a4, 0xab1c5ed5, 0xd807aa98, 0x12835b01, 0x243185be, 0x550c7dc3,
    0x72be5d74, 0x80deb1fe, 0x9bdc06a7, 0xc19bf174, 0xe49b69c1, 0xefbe4786,
    0x0fc19dc6, 0x240ca1cc, 0x2de92c6f, 0x4a7484aa, 0x5cb0a9dc, 0x76f988da,
    0x983e5152, 0xa831c66d, 0xb00327c8, 0xbf597fc7, 0xc6e00bf3, 0xd5a79147,
    0x06ca6351, 0x14292967, 0x27b70a85, 0x2e1b2138, 0x4d2c6dfc, 0x53380d13,
    0x650a7354, 0x766a0abb, 0x81c2c92e, 0x92722c85, 0xa2bfe8a1, 0xa81a664b,
    0xc24b8b70, 0xc76c51a3, 0xd192e819, 0xd6990624, 0xf40e3585, 0x106aa070,
    0x19a4c116, 0x1e376c08, 0x2748774c, 0x34b0bcb5, 0x391c0cb3, 0x4ed8aa4a,
    0x5b9cca4f, 0x682e6ff3, 0x748f82ee, 0x78a5636f, 0x84c87814, 0x8cc70208,
    0x90befffa, 0xa4506ceb, 0xbef9a3f7, 0xc67178f2]

/-- The family with words of 64 bits. -/
def wide : Variant 64 where
  upper := (28, 34, 39)
  lower := (14, 18, 41)
  old := (1, 8, 7)
  recent := (19, 61, 6)
  constants := [
    0x428a2f98d728ae22, 0x7137449123ef65cd, 0xb5c0fbcfec4d3b2f, 0xe9b5dba58189dbbc,
    0x3956c25bf348b538, 0x59f111f1b605d019, 0x923f82a4af194f9b, 0xab1c5ed5da6d8118,
    0xd807aa98a3030242, 0x12835b0145706fbe, 0x243185be4ee4b28c, 0x550c7dc3d5ffb4e2,
    0x72be5d74f27b896f, 0x80deb1fe3b1696b1, 0x9bdc06a725c71235, 0xc19bf174cf692694,
    0xe49b69c19ef14ad2, 0xefbe4786384f25e3, 0x0fc19dc68b8cd5b5, 0x240ca1cc77ac9c65,
    0x2de92c6f592b0275, 0x4a7484aa6ea6e483, 0x5cb0a9dcbd41fbd4, 0x76f988da831153b5,
    0x983e5152ee66dfab, 0xa831c66d2db43210, 0xb00327c898fb213f, 0xbf597fc7beef0ee4,
    0xc6e00bf33da88fc2, 0xd5a79147930aa725, 0x06ca6351e003826f, 0x142929670a0e6e70,
    0x27b70a8546d22ffc, 0x2e1b21385c26c926, 0x4d2c6dfc5ac42aed, 0x53380d139d95b3df,
    0x650a73548baf63de, 0x766a0abb3c77b2a8, 0x81c2c92e47edaee6, 0x92722c851482353b,
    0xa2bfe8a14cf10364, 0xa81a664bbc423001, 0xc24b8b70d0f89791, 0xc76c51a30654be30,
    0xd192e819d6ef5218, 0xd69906245565a910, 0xf40e35855771202a, 0x106aa07032bbd1b8,
    0x19a4c116b8d2d0c8, 0x1e376c085141ab53, 0x2748774cdf8eeb99, 0x34b0bcb5e19b48a8,
    0x391c0cb3c5c95a63, 0x4ed8aa4ae3418acb, 0x5b9cca4f7763e373, 0x682e6ff3d6b2b8a3,
    0x748f82ee5defb2fc, 0x78a5636f43172f60, 0x84c87814a1f0ab72, 0x8cc702081a6439ec,
    0x90befffa23631e28, 0xa4506cebde82bde9, 0xbef9a3f7b2c67915, 0xc67178f2e372532b,
    0xca273eceea26619c, 0xd186b8c721c0c207, 0xeada7dd6cde0eb1e, 0xf57d4f7fee6ed178,
    0x06f067aa72176fba, 0x0a637dc5a2c898a6, 0x113f9804bef90dae, 0x1b710b35131c471b,
    0x28db77f523047d84, 0x32caab7b40c72493, 0x3c9ebe0a15c9bebc, 0x431d67c49c100d4c,
    0x4cc5d4becb3e42b6, 0x597f299cfc657e2a, 0x5fcb6fab3ad6faec, 0x6c44198c4a475817]

end Sha2

/-- SHA-224. -/
def sha224 (m : Octets) : Octets :=
  (Sha2.digest Sha2.narrow
    ⟨0xc1059ed8, 0x367cd507, 0x3070dd17, 0xf70e5939,
      0xffc00b31, 0x68581511, 0x64f98fa7, 0xbefa4fa4⟩ m).take 28

/-- SHA-256. -/
def sha256 (m : Octets) : Octets :=
  Sha2.digest Sha2.narrow
    ⟨0x6a09e667, 0xbb67ae85, 0x3c6ef372, 0xa54ff53a,
      0x510e527f, 0x9b05688c, 0x1f83d9ab, 0x5be0cd19⟩ m

/-- SHA-384. -/
def sha384 (m : Octets) : Octets :=
  (Sha2.digest Sha2.wide
    ⟨0xcbbb9d5dc1059ed8, 0x629a292a367cd507, 0x9159015a3070dd17,
      0x152fecd8f70e5939, 0x67332667ffc00b31, 0x8eb44a8768581511,
      0xdb0c2e0d64f98fa7, 0x47b5481dbefa4fa4⟩ m).take 48

/-- SHA-512. -/
def sha512 (m : Octets) : Octets :=
  Sha2.digest Sha2.wide
    ⟨0x6a09e667f3bcc908, 0xbb67ae8584caa73b, 0x3c6ef372fe94f82b,
      0xa54ff53a5f1d36f1, 0x510e527fade682d1, 0x9b05688c2b3e6c1f,
      0x1f83d9abfb41bd6b, 0x5be0cd19137e2179⟩ m

end AcmeClient
