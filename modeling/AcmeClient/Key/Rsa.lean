import AcmeClient.Arithmetic.Modular
import AcmeClient.Hash.Sha2

/-!
# RSA

RFC 8017: a key consists of a modulus and two exponents that undo each other; with the factors of
the modulus it can be checked.

* `RsaKey`: the numbers of a key;
* `RsaKey.isConsistent`: whether they fit together;
* `RsaKey.sign?`: the signature of a message, with SHA-256.
-/

namespace AcmeClient

/-- The numbers of a key. -/
structure RsaKey where
  modulus : Nat
  publicExponent : Nat
  privateExponent : Nat
  firstPrime : Nat
  secondPrime : Nat
  firstExponent : Nat
  secondExponent : Nat
  coefficient : Nat
deriving DecidableEq, Inhabited

namespace RsaKey

/-- The numbers fit together. -/
def isConsistent (k : RsaKey) : Bool :=
  let p := k.firstPrime
  let q := k.secondPrime
  let d := k.privateExponent
  let common := Nat.lcm (p - 1) (q - 1)
  k.publicExponent % 2 == 1 && k.publicExponent != 1 && p % 2 == 1 && q % 2 == 1
    && k.modulus == p * q && d * k.publicExponent % common == 1 % common
    && k.firstExponent == d % (p - 1) && k.secondExponent == d % (q - 1)
    && k.coefficient < p && q * k.coefficient % p == 1
    && Modular.isPrime p && Modular.isPrime q

/-- The number of octets of the modulus. -/
def width (k : RsaKey) : Nat :=
  Octets.widthOf k.modulus

/-- The encoding of a SHA-256 value up to the value itself. -/
def digestHead : Octets :=
  [0x30, 0x31, 0x30, 0x0d, 0x06, 0x09, 0x60, 0x86, 0x48, 0x01, 0x65, 0x03, 0x04, 0x02, 0x01, 0x05,
    0x00, 0x04, 0x20]

/-- The padded hash value of a message: `w` octets, at least eight of them padding. -/
def padded? (w : Nat) (m : Octets) : Option Octets :=
  let t := digestHead ++ sha256 m
  if w < t.length + 11 then none
  else some (0 :: 1 :: List.replicate (w - t.length - 3) 0xff ++ 0 :: t)

/-- The signature of a message, if the modulus is large enough. -/
def sign? (k : RsaKey) (m : Octets) : Option Octets :=
  (padded? k.width m).map fun b =>
    Octets.ofNatWidth k.width (Modular.pow b.toNat k.privateExponent k.modulus)

end RsaKey

end AcmeClient
