import AcmeClient.Der

/-!
# Algorithm identifiers

An algorithm identifier is an object identifier with optional parameters. What the parameters may be
depends on the algorithm; those of an unknown algorithm are not examined.

* `X509.objectId`: object identifiers with arcs of fewest octets;
* `X509.Parameters`, `X509.parametersOf`: the rule of an algorithm;
* `X509.algorithm`: reading an algorithm identifier.
-/

namespace AcmeClient

namespace X509

/-- The arcs of an object identifier, at most `n` of them. -/
def arcs? : Nat → Octets → Option (List Nat)
  | _, [] => some []
  | 0, _ :: _ => none
  | n + 1, b => do
    let (x, r) ← Der.readNumber? b
    let xs ← arcs? n r
    some (x :: xs)

/-- An object identifier is not empty, has at most 63 octets, and every arc has the fewest
octets. -/
def isObjectId (content : Octets) : Bool :=
  !content.isEmpty && content.length ≤ 63 && (arcs? content.length content).isSome

/-- Read an object identifier. -/
def objectId : Der.Reader Octets := do
  let c ← Der.Reader.content Der.Tag.objectId
  Der.Reader.require (isObjectId c)
  pure c

/-- What the parameters of an algorithm may be. -/
inductive Parameters where
  /-- Absent. -/
  | absent
  /-- Absent or null. -/
  | nullable
  /-- A curve: a name, null for the curve of the issuer, or an explicit description. -/
  | curve
  /-- Three numbers. -/
  | threeNumbers
  /-- Absent or one element of any kind. -/
  | free
deriving DecidableEq

/-- Algorithms without parameters: the Edwards curves and the key agreements on them. -/
def plainAlgorithms : List Octets :=
  [[0x2b, 0x65, 0x70], [0x2b, 0x65, 0x71], [0x2b, 0x65, 0x6e], [0x2b, 0x65, 0x6f]]

/-- Algorithms whose parameters are absent or null: hash functions, keyed hashing, RSA with and
without a hash function, and signatures on elliptic curves. -/
def nullableAlgorithms : List Octets :=
  let rsa := fun (x : UInt8) => [0x2a, 0x86, 0x48, 0x86, 0xf7, 0x0d, 0x01, 0x01, x]
  let keyed := fun (x : UInt8) => [0x2a, 0x86, 0x48, 0x86, 0xf7, 0x0d, 0x02, x]
  let hash := fun (x : UInt8) => [0x60, 0x86, 0x48, 0x01, 0x65, 0x03, 0x04, 0x02, x]
  let signature := fun (x : UInt8) => [0x60, 0x86, 0x48, 0x01, 0x65, 0x03, 0x04, 0x03, x]
  let curve := fun (x : UInt8) => [0x2a, 0x86, 0x48, 0xce, 0x3d, 0x04, 0x03, x]
  [[0x2b, 0x0e, 0x03, 0x02, 0x1a], [0x2b, 0x0e, 0x03, 0x02, 0x1d]]
    ++ [0x01, 0x05, 0x0b, 0x0c, 0x0d, 0x0e].map rsa
    ++ [0x07, 0x08, 0x09, 0x0a, 0x0b].map keyed
    ++ [0x01, 0x02, 0x03, 0x04, 0x07, 0x08, 0x09, 0x0a].map hash
    ++ [0x01, 0x02, 0x03, 0x04, 0x09, 0x0a, 0x0b, 0x0c, 0x0d, 0x0e, 0x0f, 0x10].map signature
    ++ [0x01, 0x02, 0x03, 0x04].map curve

/-- Keys on an elliptic curve. -/
def curveKey : Octets :=
  [0x2a, 0x86, 0x48, 0xce, 0x3d, 0x02, 0x01]

/-- Keys of the digital signature algorithm. -/
def dsaKey : Octets :=
  [0x2a, 0x86, 0x48, 0xce, 0x38, 0x04, 0x01]

/-- The rule for the parameters of an algorithm. -/
def parametersOf (algorithm : Octets) : Parameters :=
  if plainAlgorithms.contains algorithm then .absent
  else if nullableAlgorithms.contains algorithm then .nullable
  else if algorithm = curveKey then .curve
  else if algorithm = dsaKey then .threeNumbers
  else .free

/-- Read an integer in the shortest form. -/
def integer : Der.Reader Int := do
  let c ← Der.Reader.content Der.Tag.integer
  match Der.integer? c with
  | some n => pure n
  | none => failure

/-- Read a number that is not negative. -/
def natural : Der.Reader Nat := do
  let n ← integer
  Der.Reader.require (0 ≤ n)
  pure n.toNat

/-- Read null. -/
def null : Der.Reader Unit := do
  let c ← Der.Reader.content Der.Tag.null
  Der.Reader.require c.isEmpty

/-- Read the description of a curve; the result is its name, if it has one. -/
def curve : Der.Reader (Option Octets) := do
  match ← Der.Reader.peek with
  | some t =>
    if t = Der.Tag.objectId then
      let c ← objectId
      pure (some c)
    else if t = Der.Tag.null then
      null
      pure none
    else
      let _ ← Der.Reader.content Der.Tag.sequence
      pure none
  | none => failure

/-- Read three numbers in a sequence. -/
def threeNumbers : Der.Reader Unit := do
  let c ← Der.Reader.content Der.Tag.sequence
  match Der.readWhole? (do let _ ← natural; let _ ← natural; natural) c with
  | some _ => pure ()
  | none => failure

/-- Read parameters by a rule. -/
def parameters : Parameters → Der.Reader Unit
  | .absent => pure ()
  | .nullable => do
    let _ ← Der.Reader.optional Der.Tag.null null
    pure ()
  | .curve => do
    let _ ← curve
    pure ()
  | .threeNumbers => threeNumbers
  | .free => do
    match ← Der.Reader.peek with
    | none => pure ()
    | some _ =>
      let _ ← Der.Reader.any
      pure ()

/-- An algorithm with its parameters as they are written. -/
structure Algorithm where
  id : Octets
  parameters : Octets
deriving DecidableEq, Inhabited

/-- The fields of an algorithm identifier. -/
def algorithmFields : Der.Reader Algorithm := do
  let id ← objectId
  let rest ← get
  parameters (parametersOf id)
  pure ⟨id, rest⟩

/-- Read an algorithm identifier. -/
def algorithm : Der.Reader Algorithm := do
  let c ← Der.Reader.content Der.Tag.sequence
  match Der.readWhole? algorithmFields c with
  | some a => pure a
  | none => failure

end X509

end AcmeClient
