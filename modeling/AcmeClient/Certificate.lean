import AcmeClient.Error
import AcmeClient.Pem
import AcmeClient.X509.Document

/-!
# Certificates

A certificate is known by its serial number and its encoding. One that was read from octets has
these octets as its encoding; others may fail to be encoded.

* `Certificate`, `Certificate.encode`: certificates and their encoding;
* `Certificate.ofDer`, `Certificate.ofPem`: reading one;
* `Certificate.pem`: its PEM block;
* `Certificate.Given`: a certificate as it is handed over.
-/

namespace AcmeClient

/-- A certificate. -/
structure Certificate where
  serial : Int
  /-- The encoding, or the kind of error that prevents it. -/
  encoding : Except ErrorKind Octets
deriving Inhabited

namespace Certificate

/-- The certificate that octets encode. -/
def load (b : Octets) : Except Error Certificate :=
  match X509.read b with
  | .ok d => .ok ⟨d.serial, .ok b⟩
  | .error .malformed => .error (.plain .value "malformed certificate")
  | .error .version => .error (.plain .certificateVersion "unknown version")

/-- The certificate that octets encode; malformed octets are an encoding error. -/
def ofDer (b : Octets) : Except Error Certificate :=
  wrapWhen Error.isValue .encoding "Invalid DER certificate" (load b)

/-- The labels of certificates in PEM texts. -/
def labels : List String :=
  ["CERTIFICATE", "X509 CERTIFICATE"]

/-- The first certificate of a PEM text. -/
def loadPem (s : List Char) : Except Error Certificate :=
  match Pem.find? labels s with
  | some b => load b.content
  | none => .error (.plain .value "no certificate in PEM text")

/-- The first certificate of a PEM text; a malformed text is an encoding error. -/
def ofPem (s : List Char) : Except Error Certificate :=
  wrapWhen Error.isValue .encoding "Invalid PEM certificate" (loadPem s)

/-- The kinds of failures to encode a certificate that are encoding errors. -/
def isEncodingFailure (e : Error) : Bool :=
  e.isValue || e.kind? == some .wrongType

/-- The encoding of a certificate. -/
def encode (c : Certificate) : Except Error Octets :=
  match c.encoding with
  | .ok b => .ok b
  | .error k =>
    wrapWhen isEncodingFailure .encoding "Could not encode certificate" (.error (.plain k ""))

/-- The serial number in hexadecimal digits. -/
def serialText (c : Certificate) : String :=
  (if c.serial < 0 then "-" else "") ++ String.ofList (Quoted.hex 1 c.serial.natAbs)

/-- The PEM block of a certificate. -/
def pem (c : Certificate) : Except Error String := do
  let b ← c.encode
  .ok (String.ofList (Pem.write "CERTIFICATE".toList b))

/-- A certificate as it is handed over: as octets, or as what should be a certificate. -/
inductive Given where
  | octets (b : Octets)
  | certificate (c : Certificate)
  /-- Something else. -/
  | other
deriving Inhabited

/-- The error for something that is no certificate. -/
def Given.foreign : Error :=
  .plain .noOperation "not a certificate"

/-- The octets of a certificate as it is handed over. -/
def Given.encode : Given → Except Error Octets
  | octets b => .ok b
  | certificate c => c.encode
  | other => .error foreign

/-- The serial number of a certificate as it is handed over. -/
def Given.serialText : Given → Except Error String
  | octets b => do
    let c ← ofDer b
    .ok c.serialText
  | certificate c => .ok c.serialText
  | other => .error foreign

end Certificate

end AcmeClient
