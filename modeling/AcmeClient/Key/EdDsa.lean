import AcmeClient.Curve.Edwards
import AcmeClient.Hash.Sha2
import AcmeClient.Hash.Shake

/-!
# Signatures on Edwards curves

RFC 8032: the hash of the secret seed gives the secret number and the key of a hash function from
which the secret number of each signature is derived.

* `EdCurve`: the two variants;
* `EdDsa.publicKey`: the written public point of a seed;
* `EdDsa.sign`: the signature of a message.
-/

namespace AcmeClient

/-- The two curves with their hash functions. -/
inductive EdCurve where
  | ed25519
  | ed448
deriving DecidableEq, Inhabited

namespace EdCurve

/-- The parameters of a curve. -/
def parameters : EdCurve → Edwards
  | ed25519 => .curve25519
  | ed448 => .curve448

/-- The number of octets of a seed, and of a public key. -/
def width : EdCurve → Nat
  | ed25519 => 32
  | ed448 => 57

/-- The name of a curve in a web key. -/
def name : EdCurve → String
  | ed25519 => "Ed25519"
  | ed448 => "Ed448"

/-- The hash function, with twice as many octets as a seed. -/
def digest : EdCurve → Octets → Octets
  | ed25519, m => sha512 m
  | ed448, m => shake256 114 m

/-- What is hashed in front of every message. -/
def label : EdCurve → Octets
  | ed25519 => []
  | ed448 => Octets.ofString "SigEd448" ++ [0, 0]

end EdCurve

namespace EdDsa

/-- The secret number of a seed: some bits are fixed so that it has a known size and is a multiple
of the cofactor. -/
def secret (c : EdCurve) (seed : Octets) : Nat :=
  let n := Octets.toNatLittle ((c.digest seed).take c.width)
  match c with
  | .ed25519 => n % (1 <<< 254) / 8 * 8 + (1 <<< 254)
  | .ed448 => n % (1 <<< 447) / 4 * 4 + (1 <<< 447)

/-- The written public point of a seed. -/
def publicKey (c : EdCurve) (seed : Octets) : Octets :=
  c.parameters.multiple (secret c seed)

/-- A hash value as a number below the order. -/
def hashNumber (c : EdCurve) (m : Octets) : Nat :=
  Octets.toNatLittle (c.digest (c.label ++ m)) % c.parameters.n

/-- The signature of a message: a point and a number. -/
def sign (c : EdCurve) (seed m : Octets) : Octets :=
  let a := secret c seed
  let r := hashNumber c ((c.digest seed).drop c.width ++ m)
  let point := c.parameters.multiple r
  let k := hashNumber c (point ++ publicKey c seed ++ m)
  point ++ Octets.ofNatLittle c.width ((r + k * a) % c.parameters.n)

end EdDsa

end AcmeClient
