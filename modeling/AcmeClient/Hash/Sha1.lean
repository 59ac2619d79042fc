import AcmeClient.Hash.Sha2

/-!
# The SHA-1 hash function

FIPS 180-4: the padding of the 32-bit SHA-2 family, a schedule of eighty words and four kinds of
rounds. It only identifies issuers here, nothing is signed with it.

* `sha1`.
-/

namespace AcmeClient

namespace Sha1

/-- The five chaining words. -/
structure Chain where
  a : BitVec 32
  b : BitVec 32
  c : BitVec 32
  d : BitVec 32
  e : BitVec 32

/-- Append one word to the message schedule. -/
def extend (s : Array (BitVec 32)) : Array (BitVec 32) :=
  let back := fun k => s.getD (s.size - k) 0
  s.push ((back 3 ^^^ back 8 ^^^ back 14 ^^^ back 16).rotateLeft 1)

/-- The message schedule of a block of sixteen words. -/
def schedule (block : List (BitVec 32)) : List (BitVec 32) :=
  ((List.range 64).foldl (fun s _ => extend s) block.toArray).toList

/-- The mixing function and the constant of round `i`. -/
def roundKind (i : Nat) (s : Chain) : BitVec 32 × BitVec 32 :=
  if i < 20 then ((s.b &&& s.c) ^^^ (~~~s.b &&& s.d), 0x5a827999)
  else if i < 40 then (s.b ^^^ s.c ^^^ s.d, 0x6ed9eba1)
  else if i < 60 then ((s.b &&& s.c) ^^^ (s.b &&& s.d) ^^^ (s.c &&& s.d), 0x8f1bbcdc)
  else (s.b ^^^ s.c ^^^ s.d, 0xca62c1d6)

/-- Round `i` with schedule word `x`. -/
def round (s : Chain) (i : Nat) (x : BitVec 32) : Chain :=
  let (f, k) := roundKind i s
  ⟨s.a.rotateLeft 5 + f + s.e + k + x, s.a, s.b.rotateLeft 30, s.c, s.d⟩

/-- Mix one block into the chaining words. -/
def compress (s : Chain) (block : List (BitVec 32)) : Chain :=
  let t := (schedule block).zipIdx.foldl (fun t p => round t p.2 p.1) s
  ⟨s.a + t.a, s.b + t.b, s.c + t.c, s.d + t.d, s.e + t.e⟩

end Sha1

/-- SHA-1. -/
def sha1 (m : Octets) : Octets :=
  let start : Sha1.Chain := ⟨0x67452301, 0xefcdab89, 0x98badcfe, 0x10325476, 0xc3d2e1f0⟩
  let chunks := (Sha2.pad 4 m).blocks 64
  let s := chunks.foldl (fun s b => Sha1.compress s (Sha2.words 32 b)) start
  [s.a, s.b, s.c, s.d, s.e].flatMap fun x => Octets.ofNatWidth 4 x.toNat

end AcmeClient
