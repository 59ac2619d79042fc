/-!
# Octet strings and big-endian numbers

Octet strings are lists of bytes. A natural number is written either with the fewest octets or in a
field of fixed width, most significant octet first.

* `Octets.toNat`: the number an octet string stands for;
* `Octets.ofNatWidth`, `Octets.ofNat`: the two ways of writing a number;
* `Octets.hasInfix`: searching for a marker.
-/

namespace AcmeClient

/-- A string of octets. -/
abbrev Octets := List UInt8

namespace Octets

/-- The number whose big-endian base 256 digits are the given octets. -/
def toNat (b : Octets) : Nat :=
  b.foldl (fun n x => n * 256 + x.toNat) 0

/-- The lowest `w` base 256 digits of `n`, most significant first. -/
def ofNatWidth : Nat → Nat → Octets
  | 0, _ => []
  | w + 1, n => ofNatWidth w (n / 256) ++ [UInt8.ofNat (n % 256)]

/-- The number of octets needed to write `n`; zero takes one octet. -/
def widthOf (n : Nat) : Nat :=
  Nat.log2 n / 8 + 1

/-- The shortest big-endian form of `n`, never empty. -/
def ofNat (n : Nat) : Octets :=
  ofNatWidth (widthOf n) n

/-- The low octet first. -/
def toNatLittle (b : Octets) : Nat :=
  toNat b.reverse

/-- The lowest `w` base 256 digits of `n`, least significant first. -/
def ofNatLittle (w n : Nat) : Octets :=
  (ofNatWidth w n).reverse

/-- The octets of a text in UTF-8. -/
def ofString (s : String) : Octets :=
  s.toUTF8.toList

/-- `true` if the octets `m` occur in `b` as a contiguous part. -/
def hasInfix (m : Octets) : Octets → Bool
  | [] => m.isEmpty
  | x :: b => m.isPrefixOf (x :: b) || hasInfix m b

/-- Split into blocks of `n` octets; an incomplete last block is kept. -/
def blocks (n : Nat) (b : Octets) : List Octets :=
  if _h : b.length ≤ n ∨ n = 0 then
    if b.isEmpty then [] else [b]
  else
    b.take n :: blocks n (b.drop n)
termination_by b.length
decreasing_by
  simp only [List.length_drop]
  omega

end Octets

end AcmeClient
