import AcmeClient.Curve.Weierstrass
import AcmeClient.Hash.Hmac
import AcmeClient.Hash.Sha2

/-!
# Curves for signatures

The three curves on which account and certificate keys are used.

* `Curve`: the curves;
* `Curve.parameters`, `Curve.width`: their parameters, and the octets of a coordinate;
* `Curve.name`, `Curve.algorithm`: their names in web keys and signatures;
* `Curve.digest`: the hash function that goes with each.
-/

namespace AcmeClient

/-- The curves for signatures. -/
inductive Curve where
  | p256
  | p384
  | p521
deriving DecidableEq, Inhabited

/-! ## Parameters -/

/-- The curve over 256 bits. -/
def Weierstrass.p256 : Weierstrass where
  p := 0xffffffff00000001000000000000000000000000ffffffffffffffffffffffff
  a := 0xffffffff00000001000000000000000000000000fffffffffffffffffffffffc
  b := 0x5ac635d8aa3a93e7b3ebbd55769886bc651d06b0cc53b0f63bce3c3e27d2604b
  x := 0x6b17d1f2e12c4247f8bce6e563a440f277037d812deb33a0f4a13945d898c296
  y := 0x4fe342e2fe1a7f9b8ee7eb4a7c0f9e162bce33576b315ececbb6406837bf51f5
  n := 0xffffffff00000000ffffffffffffffffbce6faada7179e84f3b9cac2fc632551

/-- The curve over 384 bits. -/
def Weierstrass.p384 : Weierstrass where
  p := 0xfffffffffffffffffffffffffffffffffffffffffffffffffffffffffffffffeffffffff0000000000000000ffffffff
  a := 0xfffffffffffffffffffffffffffffffffffffffffffffffffffffffffffffffeffffffff0000000000000000fffffffc
  b := 0xb3312fa7e23ee7e4988e056be3f82d19181d9c6efe8141120314088f5013875ac656398d8a2ed19d2a85c8edd3ec2aef
  x := 0xaa87ca22be8b05378eb1c71ef320ad746e1d3b628ba79b9859f741e082542a385502f25dbf55296c3a545e3872760ab7
  y := 0x3617de4a96262c6f5d9e98bf9292dc29f8f41dbd289a147ce9da3113b5f0b8c00a60b1ce1d7e819d7a431d7c90ea0e5f
  n := 0xffffffffffffffffffffffffffffffffffffffffffffffffc7634d81f4372ddf581a0db248b0a77aecec196accc52973

/-- The curve over 521 bits. -/
def Weierstrass.p521 : Weierstrass where
  p := 0x1ffffffffffffffffffffffffffffffffffffffffffffffffffffffffffffffffffffffffffffffffffffffffffffffffffffffffffffffffffffffffffffffffff
  a := 0x1fffffffffffffffffffffffffffffffffffffffffffffffffffffffffffffffffffffffffffffffffffffffffffffffffffffffffffffffffffffffffffffffffc
  b := 0x51953eb9618e1c9a1f929a21a0b68540eea2da725b99b315f3b8b489918ef109e156193951ec7e937b1652c0bd3bb1bf073573df883d2c34f1ef451fd46b503f00
  x := 0xc6858e06b70404e9cd9e3ecb662395b4429c648139053fb521f828af606b4d3dbaa14b5e77efe75928fe1dc127a2ffa8de3348b3c1856a429bf97e7e31c2e5bd66
  y := 0x11839296a789a3bc0045c8a5fb42c7d1bd998f54449579b446817afbd17273e662c97ee72995ef42640c550b9013fad0761353c7086a272c24088be94769fd16650
  n := 0x1fffffffffffffffffffffffffffffffffffffffffffffffffffffffffffffffffa51868783bf2f966b7fcc0148f709a5d03bb5c9b8899c47aebb6fb71e91386409

namespace Curve

/-- The parameters of a curve. -/
def parameters : Curve → Weierstrass
  | p256 => .p256
  | p384 => .p384
  | p521 => .p521

/-- The number of octets of a coordinate. -/
def width : Curve → Nat
  | p256 => 32
  | p384 => 48
  | p521 => 66

/-- The number of bits of the order. -/
def orderBits : Curve → Nat
  | p256 => 256
  | p384 => 384
  | p521 => 521

/-- The name of a curve in a web key. -/
def name : Curve → String
  | p256 => "P-256"
  | p384 => "P-384"
  | p521 => "P-521"

/-- The name of the signature algorithm on a curve. -/
def algorithm : Curve → String
  | p256 => "ES256"
  | p384 => "ES384"
  | p521 => "ES512"

/-- The hash function that goes with a curve. -/
def digest : Curve → Octets → Octets
  | p256 => sha256
  | p384 => sha384
  | p521 => sha512

/-- Keyed hashing with the hash function of a curve. -/
def keyedHash : Curve → Octets → Octets → Octets
  | p256 => hmac sha256 64
  | p384 => hmac sha384 128
  | p521 => hmac sha512 128

/-- The number of octets of a hash value. -/
def digestWidth : Curve → Nat
  | p256 => 32
  | p384 => 48
  | p521 => 64

end Curve

end AcmeClient
