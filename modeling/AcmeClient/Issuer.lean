import AcmeClient.Certificate
import AcmeClient.Der.Lenient

/-!
# Issuers

An issuer is identified by its name and its public key. Both are taken from its certificate, of
which nothing else is examined, so that octets after the certificate and unusual encodings do not
matter.

* `Issuer`: name and key;
* `Issuer.ofDer`: the issuer of an encoded certificate;
* `Issuer.KeyForm`: what the bits of the key have to look like.
-/

namespace AcmeClient

/-- Name and public key of an issuer. -/
structure Issuer where
  /-- The name as an element. -/
  name : Octets
  /-- The bits of the key. -/
  key : Octets
deriving DecidableEq, Inhabited

namespace Issuer

/-- What the bits of a key have to look like. -/
inductive KeyForm where
  /-- Any bits; unused ones count as zero. -/
  | opaqueBits
  /-- Whole octets that start with an element of the given tag. -/
  | element (t : Der.Tag)
deriving DecidableEq

/-- The key algorithms by the numbers of their object identifiers. -/
def keyForms : List (List Nat × KeyForm) := [
  ([42, 840, 113549, 1, 1, 1], .element Der.Tag.sequence),
  ([42, 840, 113549, 1, 1, 7], .element Der.Tag.sequence),
  ([42, 840, 113549, 1, 1, 10], .element Der.Tag.sequence),
  ([42, 840, 10040, 4, 1], .element Der.Tag.integer),
  ([42, 840, 10046, 2, 1], .element Der.Tag.integer),
  ([42, 840, 10045, 2, 1], .opaqueBits),
  ([43, 101, 110], .opaqueBits),
  ([43, 101, 111], .opaqueBits),
  ([43, 101, 112], .opaqueBits),
  ([43, 101, 113], .opaqueBits)]

/-- The form of the key for an algorithm. -/
def keyForm? (algorithm : List Nat) : Option KeyForm :=
  (keyForms.find? fun p => p.1 = algorithm).map (·.2)

/-- The octets without the last `n` bits, which become zero. -/
def clearBits (n : Nat) (bits : Octets) : Octets :=
  match bits.getLast? with
  | none => []
  | some x => bits.dropLast ++ [UInt8.ofNat (x.toNat / (1 <<< n) * (1 <<< n))]

/-- The bits of a key, from the count of unused bits and the octets. -/
def bits? : KeyForm → UInt8 → Octets → Option Octets
  | .opaqueBits, u, bits =>
    if u = 0 then some bits
    else if bits.isEmpty ∨ u > 7 then none
    else some (clearBits u.toNat bits)
  | .element t, u, bits =>
    if u ≠ 0 then none
    else
      match Lenient.readElement? bits with
      | some (e, _) => if e.tag = t then some bits else none
      | none => none

/-- An unusable certificate. -/
def malformed : Error :=
  .plain .value "malformed issuer"

/-- Fail with an error if there is nothing. -/
def demand {α : Type} (o : Option α) : Except Error α :=
  match o with
  | some x => .ok x
  | none => .error malformed

/-- Without the version, if it is there. -/
def skipVersion : List Lenient.Element → List Lenient.Element
  | [] => []
  | e :: es => if e.tag.family = 2 ∧ e.tag.number = 0 then es else e :: es

/-- The public key bits of a key description: algorithm and bit string. -/
def keyOf (info : Lenient.Element) : Except Error Octets := do
  let parts ← demand (info.within? Der.Tag.sequence)
  match parts with
  | algorithm :: key :: _ =>
    let fields ← demand (algorithm.within? Der.Tag.sequence)
    let id ← demand fields.head?
    let form ← demand (if id.tag = Der.Tag.objectId then keyForm? (Lenient.numbers 0 id.content)
      else none)
    if key.tag ≠ Der.Tag.bitString then .error malformed
    else
      match key.content with
      | [] => .error (.plain .noPosition "empty bit string")
      | u :: bits => demand (bits? form u bits)
  | _ => .error malformed

/-- Name and key in an encoded certificate. -/
def extract (b : Octets) : Except Error Issuer := do
  let (c, _) ← demand (Lenient.readElement? b)
  let parts ← demand (c.within? Der.Tag.sequence)
  match parts with
  | body :: _ :: _ :: _ =>
    let fields ← demand (body.within? Der.Tag.sequence)
    match skipVersion fields with
    | _ :: _ :: _ :: _ :: name :: info :: _ =>
      if name.tag ≠ Der.Tag.sequence then .error malformed
      else
        let key ← keyOf info
        .ok ⟨name.octets, key⟩
    | _ => .error malformed
  | _ => .error malformed

/-- The issuer of an encoded certificate. -/
def ofDer (b : Octets) : Except Error Issuer :=
  wrapWhen Error.isUnusable .encoding "Could not parse issuer certificate" (extract b)

/-- The issuer of a certificate as it is handed over. -/
def ofGiven (g : Certificate.Given) : Except Error Issuer := do
  ofDer (← g.encode)

end Issuer

end AcmeClient
