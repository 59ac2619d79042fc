import AcmeClient.Curve.Registry
import AcmeClient.Key.Private
import AcmeClient.Pem
import AcmeClient.X509.Document

/-!
# Reading private keys

The first private key of a PEM text is read, in the general form of RFC 5208 or in the special forms
for RSA and for elliptic curves. The numbers of a key have to fit together. Encrypted keys cannot be
read.

* `PrivateKey.ofPem`: the private key of a text;
* `KeyInfo`, `KeyFault`: what is read first, and why a key is refused.
-/

namespace AcmeClient

namespace PrivateKey

/-- Why a key is refused. -/
inductive KeyFault where
  | malformed
  | encrypted
  | unknownAlgorithm
deriving DecidableEq, Inhabited

/-- The error for a key that is refused. -/
def KeyFault.error : KeyFault → Error
  | malformed => .plain .value "malformed key"
  | encrypted => .plain .wrongType "encrypted key"
  | unknownAlgorithm => .plain .algorithm "unknown algorithm"

/-- A fault if something is missing. -/
def orMalformed {α : Type} (o : Option α) : Except KeyFault α :=
  match o with
  | some x => .ok x
  | none => .error .malformed

/-! ## RSA -/

/-- The numbers of an RSA key. -/
def rsaFields : Der.Reader RsaKey := do
  let version ← X509.natural
  Der.Reader.require (version == 0)
  let modulus ← X509.natural
  let publicExponent ← X509.natural
  let privateExponent ← X509.natural
  let firstPrime ← X509.natural
  let secondPrime ← X509.natural
  let firstExponent ← X509.natural
  let secondExponent ← X509.natural
  let coefficient ← X509.natural
  pure ⟨modulus, publicExponent, privateExponent, firstPrime, secondPrime, firstExponent,
    secondExponent, coefficient⟩

/-- An RSA key. -/
def readRsa (b : Octets) : Except KeyFault PrivateKey := do
  let k ← orMalformed (Der.readWhole? (X509.within Der.Tag.sequence rsaFields) b)
  if k.isConsistent then .ok (.rsa k) else .error .malformed

/-! ## Elliptic curves -/

/-- What is written for a key on an elliptic curve. -/
structure PointKey where
  octets : Octets
  /-- The description of the curve as it is written, and its name if it has one. -/
  curve : Option (Octets × Option Octets)
  point : Option Octets

/-- The description of a curve as it is written, and its name. -/
def curveWritten : Der.Reader (Octets × Option Octets) := do
  let before ← get
  let name ← X509.curve
  let after ← get
  pure (before.take (before.length - after.length), name)

/-- The fields of a key on an elliptic curve. -/
def pointFields : Der.Reader PointKey := do
  let version ← X509.natural
  Der.Reader.require (version == 1)
  let octets ← Der.Reader.content Der.Tag.octetString
  let curve ← Der.Reader.optional (Der.Tag.explicit 0) (X509.within (Der.Tag.explicit 0) curveWritten)
  let point ← Der.Reader.optional (Der.Tag.explicit 1)
    (X509.within (Der.Tag.explicit 1) (X509.bitString Der.Tag.bitString))
  pure ⟨octets, curve, point⟩

/-- Whether octets are a written form of a point: compressed, in full, or both. -/
def isWritten (width : Nat) (p : Nat × Nat) (b : Octets) : Bool :=
  let x := Octets.ofNatWidth width p.1
  let y := Octets.ofNatWidth width p.2
  let sign := UInt8.ofNat (p.2 % 2)
  b == 4 :: x ++ y || b == (2 + sign) :: x || b == (6 + sign) :: x ++ y

/-- Check the numbers of a key on a curve. -/
def checkPoint (e : Curve.Entry) (k : PointKey) : Except KeyFault PrivateKey :=
  let w := e.parameters
  let d := Octets.toNat k.octets
  if k.octets.length ≠ Octets.widthOf w.n ∨ d = 0 ∨ d ≥ w.n then .error .malformed
  else
    match w.multiple d w.generator with
    | none => .error .malformed
    | some p =>
      let agrees := match k.point with
        | none => true
        | some b => isWritten (Octets.widthOf w.p) p b
      if !agrees then .error .malformed
      else
        match e.usable with
        | some c => .ok (.point c d)
        | none => .ok .foreign

/-- The curve with a description. -/
def curveEntry (name : Option Octets) : Except KeyFault Curve.Entry :=
  match name with
  | none => .error .malformed
  | some id =>
    match Curve.find? id with
    | some e => .ok e
    | none => .error .unknownAlgorithm

/-- A key on an elliptic curve, the curve of which may be known already. -/
def readPoint (outer : Option (Octets × Option Octets)) (b : Octets) :
    Except KeyFault PrivateKey := do
  let k ← orMalformed (Der.readWhole? (X509.within Der.Tag.sequence pointFields) b)
  let curve ← match outer, k.curve with
    | some c, some d => if c.1 = d.1 then Except.ok c else .error .malformed
    | some c, none => .ok c
    | none, some d => .ok d
    | none, none => .error .malformed
  checkPoint (← curveEntry curve.2) k

/-! ## The general form -/

/-- A key with its algorithm. -/
structure KeyInfo where
  algorithm : X509.Algorithm
  content : Octets

/-- An attribute of a key: a name and a set of values. -/
def isKeyAttribute (e : Der.Element) : Bool :=
  e.tag = Der.Tag.sequence && (Der.readWhole? (do
    let _ ← X509.objectId
    let values ← Der.Reader.content Der.Tag.set
    Der.Reader.require (X509.allElements (fun _ => true) values)) e.content).isSome

/-- The attributes of a key. -/
def keyAttributes : Der.Reader Unit := do
  let c ← Der.Reader.content (Der.Tag.explicit 0)
  Der.Reader.require (X509.allElements isKeyAttribute c)

/-- The fields of the general form. -/
def keyInfoFields : Der.Reader KeyInfo := do
  let version ← X509.natural
  Der.Reader.require (version == 0)
  let a ← X509.algorithm
  let content ← Der.Reader.content Der.Tag.octetString
  let _ ← Der.Reader.optional (Der.Tag.explicit 0) keyAttributes
  pure ⟨a, content⟩

/-- The octets of a key of fixed width. -/
def readSeed (width : Nat) (b : Octets) : Except KeyFault Octets := do
  let seed ← orMalformed (Der.readWhole? (Der.Reader.content Der.Tag.octetString) b)
  if seed.length = width then .ok seed else .error .malformed

/-- The object identifiers of RSA keys. -/
def rsaKeys : List Octets :=
  [[0x2a, 0x86, 0x48, 0x86, 0xf7, 0x0d, 0x01, 0x01, 0x01],
    [0x2a, 0x86, 0x48, 0x86, 0xf7, 0x0d, 0x01, 0x01, 0x0a]]

/-- A key in the general form. -/
def readGeneral (b : Octets) : Except KeyFault PrivateKey := do
  let k ← orMalformed (Der.readWhole? (X509.within Der.Tag.sequence keyInfoFields) b)
  let id := k.algorithm.id
  if rsaKeys.contains id then readRsa k.content
  else if id = X509.curveKey then
    let curve ← orMalformed (Der.readWhole? curveWritten k.algorithm.parameters)
    readPoint (some curve) k.content
  else if id = [0x2b, 0x65, 0x70] then
    let seed ← readSeed EdCurve.ed25519.width k.content
    .ok (.edwards .ed25519 seed)
  else if id = [0x2b, 0x65, 0x71] then
    let seed ← readSeed EdCurve.ed448.width k.content
    .ok (.edwards .ed448 seed)
  else if id = [0x2b, 0x65, 0x6e] then
    let _ ← readSeed 32 k.content
    .ok .foreign
  else if id = [0x2b, 0x65, 0x6f] then
    let _ ← readSeed 56 k.content
    .ok .foreign
  else if id = X509.dsaKey then
    let _ ← orMalformed (Der.readWhole? X509.natural k.content)
    .ok .foreign
  else .error .unknownAlgorithm

/-! ## PEM -/

/-- An encrypted key: an algorithm and octets. -/
def encryptedFields : Der.Reader Unit := do
  let _ ← X509.algorithm
  let _ ← Der.Reader.content Der.Tag.octetString
  pure ()

/-- The labels of private keys in PEM texts. -/
def labels : List String :=
  ["PRIVATE KEY", "ENCRYPTED PRIVATE KEY", "RSA PRIVATE KEY", "EC PRIVATE KEY", "DSA PRIVATE KEY"]

/-- The six numbers of a key of the digital signature algorithm. -/
def dsaFields : Der.Reader Unit := do
  let version ← X509.natural
  Der.Reader.require (version == 0)
  let _ ← X509.natural
  let _ ← X509.natural
  let _ ← X509.natural
  let _ ← X509.natural
  let _ ← X509.natural
  pure ()

/-- The private key of a block. -/
def ofBlock (b : Pem.Block) : Except KeyFault PrivateKey :=
  match b.headValue? "Proc-Type" with
  | some v => .error (if v = "4,ENCRYPTED".toList then .encrypted else .malformed)
  | none =>
    if b.label = "PRIVATE KEY".toList then readGeneral b.content
    else if b.label = "RSA PRIVATE KEY".toList then readRsa b.content
    else if b.label = "EC PRIVATE KEY".toList then readPoint none b.content
    else if b.label = "DSA PRIVATE KEY".toList then do
      let _ ← orMalformed (Der.readWhole? (X509.within Der.Tag.sequence dsaFields) b.content)
      .ok .foreign
    else do
      let _ ← orMalformed (Der.readWhole? (X509.within Der.Tag.sequence encryptedFields) b.content)
      .error .encrypted

/-- The private key of a text. -/
def ofPem (s : List Char) : Except Error PrivateKey :=
  match Pem.find? labels s with
  | none => .error KeyFault.malformed.error
  | some b => (ofBlock b).mapError KeyFault.error

end PrivateKey

end AcmeClient
