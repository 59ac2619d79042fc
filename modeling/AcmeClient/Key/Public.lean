import AcmeClient.Base64
import AcmeClient.Key.EdDsa
import AcmeClient.Key.Ecdsa
import AcmeClient.Value

/-!
# Public keys

RFC 7517, RFC 7518 and RFC 8037: public keys as web keys, and the signature algorithms that go with
them.

* `PublicKey`: the public keys in use;
* `PublicKey.jwk`: the members of the web key;
* `PublicKey.algorithm`: the name of the signature algorithm.
-/

namespace AcmeClient

/-- The public keys in use. -/
inductive PublicKey where
  | rsa (modulus exponent : Nat)
  | point (c : Curve) (x y : Nat)
  | edwards (c : EdCurve) (octets : Octets)
deriving DecidableEq, Inhabited

namespace PublicKey

/-- The name of the signature algorithm. -/
def algorithm : PublicKey → String
  | rsa _ _ => "RS256"
  | point c _ _ => c.algorithm
  | edwards _ _ => "EdDSA"

/-- Octets as the value of a member. -/
def member (b : Octets) : Value :=
  .text (Base64.encodeUrl b)

/-- The members of the web key. -/
def jwk : PublicKey → Members
  | rsa n e => [("kty", .text "RSA"), ("e", member (Octets.ofNat e)), ("n", member (Octets.ofNat n))]
  | point c x y => [("kty", .text "EC"), ("crv", .text c.name),
      ("x", member (Octets.ofNatWidth c.width x)), ("y", member (Octets.ofNatWidth c.width y))]
  | edwards c b => [("kty", .text "OKP"), ("crv", .text c.name), ("x", member b)]

end PublicKey

end AcmeClient
