import AcmeClient.Key.Public
import AcmeClient.Key.Rsa
import AcmeClient.Key.Signature

/-!
# Private keys

* `PrivateKey`: the private keys that can be read;
* `PrivateKey.publicKey?`: the public key of one in use;
* `PrivateKey.Signer`: what makes signatures on curves;
* `PrivateKey.sign`: the signature of a text, as it is sent.
-/

namespace AcmeClient

/-- A private key. -/
inductive PrivateKey where
  | rsa (k : RsaKey)
  | point (c : Curve) (d : Nat)
  | edwards (c : EdCurve) (seed : Octets)
  /-- A key that no signatures are made with. -/
  | foreign
deriving DecidableEq, Inhabited

namespace PrivateKey

/-- The public key, if signatures are made with keys of this kind. -/
def publicKey? : PrivateKey → Option PublicKey
  | rsa k => some (.rsa k.modulus k.publicExponent)
  | point c d =>
    let w := c.parameters
    (w.multiple d w.generator).map fun p => .point c p.1 p.2
  | edwards c seed => some (.edwards c (EdDsa.publicKey c seed))
  | foreign => none

/-- The error for a key that no signatures are made with. -/
def unusable : Error :=
  .plain .value "unsupported key"

/-- The public key of a key in use. -/
def publicKey (k : PrivateKey) : Except Error PublicKey :=
  match k.publicKey? with
  | some p => .ok p
  | none => .error unusable

/-- What makes the signatures on curves: for a secret key and a message, the two numbers of a
signature as a sequence of integers. -/
abbrev Signer := Curve → Nat → Octets → Octets

/-- The signer that derives its secret numbers from key and message. -/
def derivingSigner : Signer :=
  fun c d m => Ecdsa.der (Ecdsa.sign c d m)

/-- The octets of a signature, with a given signer on curves. -/
def signOctets (signer : Signer) : PrivateKey → Octets → Except Error Octets
  | rsa k, m =>
    match k.sign? m with
    | some b => .ok b
    | none => .error (.plain .value "modulus too small")
  | point c d, m => Ecdsa.rawOfDer c (signer c d m)
  | edwards c seed, m => .ok (EdDsa.sign c seed m)
  | foreign, _ => .error unusable

/-- The signature of a text, with a given signer on curves. -/
def signBy (signer : Signer) (k : PrivateKey) (s : String) : Except Error Octets :=
  k.signOctets signer (Octets.ofString s)

/-- The signature of a text. -/
def sign (k : PrivateKey) (s : String) : Except Error Octets :=
  k.signBy derivingSigner s

end PrivateKey

end AcmeClient
