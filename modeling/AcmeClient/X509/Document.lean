import AcmeClient.Time.DateTime
import AcmeClient.Text.Digit
import AcmeClient.X509.Algorithm

/-!
# X.509 certificates

The strict reader of certificates: the distinguished encoding throughout and nothing left over.
What names, extensions and keys contain is not examined.

* `X509.Document`: what a certificate says;
* `X509.read`: reading a certificate; `X509.Fault.version` if nothing but the version is wrong.
-/

namespace AcmeClient

namespace X509

/-- What a certificate says. -/
structure Document where
  /-- The version as it is written: 0 for the first, 2 for the third. -/
  version : Nat
  serial : Int
  issuer : Octets
  /-- The name of the subject, as it is written. -/
  subject : Octets
  keyAlgorithm : Algorithm
  /-- The bits of the public key, without the count of unused bits. -/
  key : Octets
deriving DecidableEq, Inhabited

/-- Why a certificate is refused. -/
inductive Fault where
  | malformed
  | version
deriving DecidableEq, Inhabited

/-- Read an element that consists of what `r` reads. -/
def within {α : Type} (t : Der.Tag) (r : Der.Reader α) : Der.Reader α := do
  let c ← Der.Reader.content t
  match Der.readWhole? r c with
  | some x => pure x
  | none => failure

/-- All octets of an element whose content satisfies `p`. -/
def verbatim (t : Der.Tag) (p : Octets → Bool) : Der.Reader Octets := do
  let e ← Der.Reader.tagged t
  Der.Reader.require (p e.content)
  pure e.octets

/-- The content consists of elements that satisfy `p`. -/
def allElements (p : Der.Element → Bool) (content : Octets) : Bool :=
  match Der.elements? content with
  | some es => es.all p
  | none => false

/-- The order of octet strings. -/
def octetsLe : Octets → Octets → Bool
  | [], _ => true
  | _ :: _, [] => false
  | x :: a, y :: b => if x = y then octetsLe a b else x < y

/-- Every element is at most the next one. -/
def isSorted : List Der.Element → Bool
  | e :: f :: es => octetsLe e.octets f.octets && isSorted (f :: es)
  | _ => true

/-- An entry of a name: an object identifier and an element of any kind. -/
def nameEntry : Der.Reader Unit := do
  let _ ← objectId
  let _ ← Der.Reader.any
  pure ()

/-- The content of a name: sets of entries. -/
def isName (content : Octets) : Bool :=
  allElements (fun e => e.tag = Der.Tag.set && allElements (fun a =>
      a.tag = Der.Tag.sequence && (Der.readWhole? nameEntry a.content).isSome) e.content
    && isSorted ((Der.elements? e.content).getD [])) content

/-- Read a name. -/
def name : Der.Reader Octets :=
  verbatim Der.Tag.sequence isName

/-- The numbers written by pairs of ASCII digits, up to the mark of the UTC clock. -/
def pairs? : Octets → Option (List Nat)
  | [0x5a] => some []
  | a :: b :: r => do
    let x ← Digit.ascii? (Char.ofNat a.toNat)
    let y ← Digit.ascii? (Char.ofNat b.toNat)
    let xs ← pairs? r
    some ((x * 10 + y) :: xs)
  | _ => none

/-- A date and a time of day that exist; the year may be 0. -/
def isMoment (year : Nat) (fields : List Nat) : Bool :=
  match fields with
  | [month, day, hour, minute, second] =>
    1 ≤ month && month ≤ 12 && 1 ≤ day && day ≤ Calendar.daysInMonth year month
      && hour < 24 && minute < 60 && second < 60
  | _ => false

/-- The content of a point in time with two or with four digits of the year. -/
def isTime (t : Der.Tag) (content : Octets) : Bool :=
  match pairs? content with
  | none => false
  | some xs =>
    if t = Der.Tag.utcTime then
      match xs with
      | y :: fields => isMoment (if y < 50 then 2000 + y else 1900 + y) fields
      | [] => false
    else if t = Der.Tag.generalTime then
      match xs with
      | c :: y :: fields => isMoment (c * 100 + y) fields
      | _ => false
    else false

/-- Read a point in time. -/
def time : Der.Reader Unit := do
  let e ← Der.Reader.any
  Der.Reader.require (isTime e.tag e.content)

/-- The content of a bit string: at most seven unused bits, which are zero. -/
def isBits : Octets → Bool
  | [] => false
  | u :: bits =>
    u ≤ 7 && (u == 0 || match bits.getLast? with
      | none => false
      | some x => x.toNat % (1 <<< u.toNat) == 0)

/-- Read a bit string without the count of unused bits. -/
def bitString (t : Der.Tag) : Der.Reader Octets := do
  let c ← Der.Reader.content t
  Der.Reader.require (isBits c)
  pure (c.drop 1)

/-- Read the mark of a critical extension, which is written only if it is set. -/
def critical : Der.Reader Unit := do
  let c ← Der.Reader.content Der.Tag.boolean
  Der.Reader.require (c == [0xff])

/-- Read an extension. -/
def extensionFields : Der.Reader Unit := do
  let _ ← objectId
  let _ ← Der.Reader.optional Der.Tag.boolean critical
  let _ ← Der.Reader.content Der.Tag.octetString
  pure ()

/-- Read the extensions. -/
def extensions : Der.Reader Unit := do
  let c ← Der.Reader.content Der.Tag.sequence
  Der.Reader.require (allElements (fun e =>
    e.tag = Der.Tag.sequence && (Der.readWhole? extensionFields e.content).isSome) c)

/-- Read a version number of one octet; the first version is not written. -/
def versionNumber : Der.Reader Nat := do
  let n ← natural
  Der.Reader.require (n ≠ 0 && n < 256)
  pure n

/-- Read algorithm and bits of a public key. -/
def keyFields : Der.Reader (Algorithm × Octets) := do
  let a ← algorithm
  let k ← bitString Der.Tag.bitString
  pure (a, k)

/-- Read the signed part of a certificate. -/
def bodyFields : Der.Reader Document := do
  let version ← Der.Reader.optional (Der.Tag.explicit 0) (within (Der.Tag.explicit 0) versionNumber)
  let serial ← integer
  let _ ← algorithm
  let issuer ← name
  within Der.Tag.sequence (do time; time)
  let subject ← name
  let (keyAlgorithm, key) ← within Der.Tag.sequence keyFields
  let _ ← Der.Reader.optional (Der.Tag.implicit 1) (bitString (Der.Tag.implicit 1))
  let _ ← Der.Reader.optional (Der.Tag.implicit 2) (bitString (Der.Tag.implicit 2))
  let _ ← Der.Reader.optional (Der.Tag.explicit 3) (within (Der.Tag.explicit 3) extensions)
  pure ⟨version.getD 0, serial, issuer, subject, keyAlgorithm, key⟩

/-- Read a certificate: signed part, algorithm and signature. -/
def certificateFields : Der.Reader Document := do
  let d ← within Der.Tag.sequence bodyFields
  let _ ← algorithm
  let _ ← bitString Der.Tag.bitString
  pure d

/-- What a certificate says, whatever its version. -/
def read? (b : Octets) : Option Document :=
  Der.readWhole? (within Der.Tag.sequence certificateFields) b

/-- The version is the first or the third. -/
def Document.isKnown (d : Document) : Bool :=
  d.version == 0 || d.version == 2

/-- What a certificate of a known version says. -/
def read (b : Octets) : Except Fault Document :=
  match read? b with
  | none => .error .malformed
  | some d => if d.isKnown then .ok d else .error .version

end X509

end AcmeClient
