import AcmeClient.Error
import AcmeClient.Key.Ecdsa
import AcmeClient.X509.Document

/-!
# Signatures on elliptic curves as they are sent

RFC 3279: a signer gives the two numbers of a signature as a sequence of integers, the width of
which depends on the numbers. RFC 7518: what is sent are both numbers in the width that goes with
the bits of the curve.

* `Ecdsa.der`, `Ecdsa.ofDer?`: the sequence of two integers;
* `Ecdsa.rawOfDer`: what is sent for it.
-/

namespace AcmeClient

namespace Ecdsa

/-- A signature as a sequence of two integers. -/
def der (s : Nat × Nat) : Octets :=
  Der.encode 0x30 (Der.encode 0x02 (Der.encodeInteger s.1) ++ Der.encode 0x02 (Der.encodeInteger s.2))

/-- Two numbers that are not negative. -/
def numbers : Der.Reader (Nat × Nat) := do
  let r ← X509.natural
  let s ← X509.natural
  pure (r, s)

/-- The two numbers of a signature. -/
def ofDer? (b : Octets) : Option (Nat × Nat) :=
  Der.readWhole? (X509.within Der.Tag.sequence numbers) b

/-- The error for a signature that is no sequence of two numbers. -/
def malformed : Error :=
  .plain .value "error parsing asn1 value"

/-- The error for a number that has more octets than a field. -/
def tooBig : Error :=
  .plain .outOfRange "int too big to convert"

/-- A number in a field of `w` octets. -/
def field (w n : Nat) : Except Error Octets :=
  if n < 1 <<< (8 * w) then .ok (Octets.ofNatWidth w n) else .error tooBig

/-- The number of octets for the bits of a curve. -/
def fieldWidth (c : Curve) : Nat :=
  (c.orderBits + 7) / 8

/-- What is sent for a signature: both numbers in fields of one width. -/
def rawOfDer (c : Curve) (b : Octets) : Except Error Octets :=
  match ofDer? b with
  | none => .error malformed
  | some s => do
    let r ← field (fieldWidth c) s.1
    let t ← field (fieldWidth c) s.2
    .ok (r ++ t)

end Ecdsa

end AcmeClient
