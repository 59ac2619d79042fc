import AcmeClient.Octets

/-!
# The extendable-output function SHAKE256

FIPS 202: a sponge over the permutation Keccak-f on twenty-five lanes of 64 bits, with 136 octets
absorbed or squeezed at a time.

* `Keccak.permute`: the permutation;
* `shake256`: the first `n` octets of output.
-/

namespace AcmeClient

namespace Keccak

/-- The twenty-five lanes, lane `(x, y)` at index `x + 5 y`. -/
abbrev Lanes := Array (BitVec 64)

/-- The lane at a position, zero outside. -/
def lane (a : Lanes) (x y : Nat) : BitVec 64 :=
  a.getD (x % 5 + 5 * (y % 5)) 0

/-- Lanes given by a function of their position. -/
def ofFn (f : Nat → Nat → BitVec 64) : Lanes :=
  Array.ofFn fun i : Fin 25 => f (i.val % 5) (i.val / 5)

/-- The rotation amounts of the lanes. -/
def offsets : List Nat :=
  [0, 1, 62, 28, 27, 36, 44, 6, 55, 20, 3, 10, 43, 25, 39, 41, 45, 15, 21, 8, 18, 2, 61, 56, 14]

/-- The constants added to the first lane, one for each round. -/
def constants : List (BitVec 64) :=
  [0x0000000000000001, 0x0000000000008082, 0x800000000000808a, 0x8000000080008000,
    0x000000000000808b, 0x0000000080000001, 0x8000000080008081, 0x8000000000008009,
    0x000000000000008a, 0x0000000000000088, 0x0000000080008009, 0x000000008000000a,
    0x000000008000808b, 0x800000000000008b, 0x8000000000008089, 0x8000000000008003,
    0x8000000000008002, 0x8000000000000080, 0x000000000000800a, 0x800000008000000a,
    0x8000000080008081, 0x8000000000008080, 0x0000000080000001, 0x8000000080008008]

/-- One round: column parities, rotation with transposition, row mixing, round constant. -/
def round (a : Lanes) (k : BitVec 64) : Lanes :=
  let c := Array.ofFn fun x : Fin 5 =>
    lane a x 0 ^^^ lane a x 1 ^^^ lane a x 2 ^^^ lane a x 3 ^^^ lane a x 4
  let d := Array.ofFn fun x : Fin 5 =>
    c.getD ((x.val + 4) % 5) 0 ^^^ (c.getD ((x.val + 1) % 5) 0).rotateLeft 1
  let t := ofFn fun x y => (lane a x y ^^^ d.getD x 0).rotateLeft (offsets.getD (x + 5 * y) 0)
  let b := ofFn fun x y => lane t (x + 3 * y) x
  let e := ofFn fun x y => lane b x y ^^^ (~~~lane b (x + 1) y &&& lane b (x + 2) y)
  e.modify 0 (· ^^^ k)

/-- The permutation of twenty-four rounds. -/
def permute (a : Lanes) : Lanes :=
  constants.foldl round a

/-- Exclusive or of a block of octets into the first lanes. -/
def absorb (a : Lanes) (block : Octets) : Lanes :=
  let words := (block.blocks 8).map fun x => BitVec.ofNat 64 x.toNatLittle
  permute (ofFn fun x y => lane a x y ^^^ words.getD (x + 5 * y) 0)

/-- The first `n` octets of the lanes. -/
def octets (a : Lanes) (n : Nat) : Octets :=
  (a.toList.flatMap fun x => Octets.ofNatLittle 8 x.toNat).take n

/-- `k` blocks of `rate` octets of output. -/
def squeeze (rate : Nat) : Nat → Lanes → Octets
  | 0, _ => []
  | k + 1, a => octets a rate ++ squeeze rate k (permute a)

end Keccak

/-- The first `n` octets of SHAKE256. -/
def shake256 (n : Nat) (m : Octets) : Octets :=
  let rate := 136
  let fill := rate - m.length % rate
  let tail : Octets :=
    if fill = 1 then [0x9f] else 0x1f :: List.replicate (fill - 2) 0 ++ [0x80]
  let start : Keccak.Lanes := Array.replicate 25 0
  let a := ((m ++ tail).blocks rate).foldl Keccak.absorb start
  (Keccak.squeeze rate (n / rate + 1) a).take n

end AcmeClient
