import AcmeClient.Hash.Sha1
import AcmeClient.Issuer

/-!
# Certificate identifiers

RFC 6960: a certificate is identified by hashes of the name and the key of its issuer and by its
serial number.

* `HashAlgorithm`, `HashAlgorithm.digest`: the hash functions on offer;
* `CertId`, `CertId.der`: identifiers and their encoding;
* `CertId.encode`, `CertId.text`: the identifier of a certificate as octets and as text.
-/

namespace AcmeClient

/-- The hash functions on offer. -/
inductive HashAlgorithm where
  | sha1
  | sha224
  | sha256
  | sha384
  | sha512
deriving DecidableEq, Inhabited

namespace HashAlgorithm

/-- All hash functions. -/
def all : List HashAlgorithm :=
  [sha1, sha224, sha256, sha384, sha512]

/-- The name of a hash function. -/
def name : HashAlgorithm → String
  | sha1 => "sha1"
  | sha224 => "sha224"
  | sha256 => "sha256"
  | sha384 => "sha384"
  | sha512 => "sha512"

/-- The hash function of a name. -/
def ofName? (s : String) : Option HashAlgorithm :=
  all.find? fun a => a.name = s

/-- The hash value of octets. -/
def digest : HashAlgorithm → Octets → Octets
  | sha1 => AcmeClient.sha1
  | sha224 => AcmeClient.sha224
  | sha256 => AcmeClient.sha256
  | sha384 => AcmeClient.sha384
  | sha512 => AcmeClient.sha512

/-- The content of the object identifier of a hash function. -/
def objectId : HashAlgorithm → Octets
  | sha1 => [0x2b, 0x0e, 0x03, 0x02, 0x1a]
  | sha224 => [0x60, 0x86, 0x48, 0x01, 0x65, 0x03, 0x04, 0x02, 0x04]
  | sha256 => [0x60, 0x86, 0x48, 0x01, 0x65, 0x03, 0x04, 0x02, 0x01]
  | sha384 => [0x60, 0x86, 0x48, 0x01, 0x65, 0x03, 0x04, 0x02, 0x02]
  | sha512 => [0x60, 0x86, 0x48, 0x01, 0x65, 0x03, 0x04, 0x02, 0x03]

/-- The hash function that a value names. -/
def ofValue : Value → Except Error HashAlgorithm
  | .text s =>
    match ofName? s with
    | some a => .ok a
    | none => .error (.plain .encoding ("Unsupported hash algorithm: " ++ s))
  | .list _ => .error (.plain .wrongType "not a name")
  | .object _ => .error (.plain .wrongType "not a name")
  | v => .error (.plain .encoding ("Unsupported hash algorithm: " ++ v.display))

/-- The hash function of a name that has to be known. -/
def named : Value → Except Error HashAlgorithm
  | .text s =>
    match ofName? s with
    | some a => .ok a
    | none => .error (.plain .missingName s)
  | .list _ => .error (.plain .wrongType "not a name")
  | .object _ => .error (.plain .wrongType "not a name")
  | v => .error (.plain .missingName v.display)

end HashAlgorithm

/-- What identifies a certificate. -/
structure CertId where
  algorithm : HashAlgorithm
  nameHash : Octets
  keyHash : Octets
  serial : Int
deriving DecidableEq, Inhabited

namespace CertId

/-- The identifier of the certificate with a serial number that an issuer issued. -/
def ofIssuer (a : HashAlgorithm) (issuer : Issuer) (serial : Int) : CertId :=
  ⟨a, a.digest issuer.name, a.digest issuer.key, serial⟩

/-- The encoding: the algorithm without parameters, the two hashes, the serial number. -/
def der (i : CertId) : Octets :=
  Der.encode 0x30 (Der.encode 0x30 (Der.encode 0x06 i.algorithm.objectId)
    ++ Der.encode 0x04 i.nameHash ++ Der.encode 0x04 i.keyHash
    ++ Der.encode 0x02 (Der.encodeInteger i.serial))

/-- The serial number in a value; truth values count as 0 and 1. -/
def serialOf : Value → Except Error Int
  | .int n => .ok n
  | .bool b => .ok (if b then 1 else 0)
  | _ => .error (.plain .encoding "Could not encode CertID")

/-- The encoded identifier of a certificate. -/
def encode (algorithm : Value) (issuer : Certificate.Given) (serial : Value) :
    Except Error Octets := do
  let a ← HashAlgorithm.ofValue algorithm
  let i ← Issuer.ofGiven issuer
  let n ← serialOf serial
  .ok (ofIssuer a i n).der

/-- The encoded identifier as text. -/
def text (algorithm : Value) (issuer : Certificate.Given) (serial : Value) :
    Except Error String := do
  let b ← encode algorithm issuer serial
  .ok (Base64.encodeUrl b)

end CertId

end AcmeClient
