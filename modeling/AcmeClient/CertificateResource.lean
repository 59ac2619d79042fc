import AcmeClient.CertId
import AcmeClient.Chain
import AcmeClient.Link
import AcmeClient.RenewalInfo
import AcmeClient.Revocation

/-!
# Certificate resources

RFC 8555, section 7.4.2: an issued certificate is downloaded with the chain of its issuers; headers
of the response lead to alternate chains. An issued certificate never changes, so that it is
downloaded once.

* `CertificateResource`: where it is, and what is known of it;
* `CertificateResource.download`: download the chain unless it is known;
* `CertificateResource.chain`, `certificate`, `alternates`, `certId`, `renewalInfo`: what can be
  asked;
* `CertificateResource.revoke`: revoke the certificate on behalf of the account.
-/

namespace AcmeClient

/-- A downloaded chain with the addresses of its alternates. -/
structure CertificateResource.Download where
  chain : List Certificate
  alternates : List String
deriving Inhabited

/-- An issued certificate. -/
structure CertificateResource where
  location : String
  /-- The downloaded chain. -/
  download? : Option CertificateResource.Download
  /-- The resources of the alternate chains, once they were asked for. -/
  alternateResources? : Option (List CertificateResource)
  /-- The identifier, once it was asked for. -/
  certId? : Option String
  /-- The renewal information, once it was fetched. -/
  renewalInfo? : Option RenewalInfo

namespace CertificateResource

variable {σ : Type}

/-- A certificate that was not downloaded yet. -/
def ofLocation (location : String) : CertificateResource :=
  ⟨location, none, none, none, none⟩

instance : Inhabited CertificateResource :=
  ⟨ofLocation ""⟩

/-- The chain was downloaded. -/
def isLoaded (c : CertificateResource) : Bool :=
  c.download?.isSome

/-- How far the certificate is known. -/
def stateText (c : CertificateResource) : String :=
  if c.isLoaded then "loaded" else "unloaded"

/-- How a certificate appears in messages. -/
def text (c : CertificateResource) : String :=
  "Certificate(" ++ Quoted.text c.location ++ ", " ++ c.stateText ++ ")"

/-! ## Downloading -/

/-- Fetch the chain at a location. -/
def fetch (A : Authority σ) (location : String) : Action σ Download := do
  A.say (Log.info ("Downloading certificate from " ++ location))
  let (body, headers) ← A.requestCertificate location
  let alternates ← Action.ofExcept (Link.targets headers "alternate" location)
  let chain ← Action.ofExcept (Chain.parseBody body)
  pure ⟨chain, alternates⟩

/-- The chain and its alternates, downloaded unless they are known. -/
def download (A : Authority σ) : Action (CertificateResource × σ) Download := do
  let (c, _) ← Action.get
  match c.download? with
  | some d => pure d
  | none =>
    let d ← Action.onSecond (fetch A c.location)
    Action.modifyFirst fun c => { c with download? := some d }
    pure d

/-- Where an action fails because of the authority, the certificate could not be loaded. -/
def loading {α : Type} (x : Action (CertificateResource × σ) α) :
    Action (CertificateResource × σ) α := do
  let (c, _) ← Action.get
  x.mapError (Error.asLoadFailure "Certificate" c.location)

/-- The chain and its alternates on access. -/
def loaded (A : Authority σ) : Action (CertificateResource × σ) Download :=
  loading (download A)

/-- The chain, the certificate itself first. -/
def chain (A : Authority σ) : Action (CertificateResource × σ) (List Certificate) := do
  let d ← loaded A
  pure d.chain

/-- The certificate itself. -/
def certificate (A : Authority σ) : Action (CertificateResource × σ) Certificate := do
  match ← chain A with
  | c :: _ => pure c
  | [] => Action.fail (.plain .noPosition "empty chain")

/-- The addresses of alternate chains. -/
def alternates (A : Authority σ) : Action (CertificateResource × σ) (List String) := do
  let d ← loaded A
  pure d.alternates

/-- The resources of the alternate chains. -/
def alternateResources (A : Authority σ) :
    Action (CertificateResource × σ) (List CertificateResource) := do
  let urls ← alternates A
  match (← Action.get).1.alternateResources? with
  | some rs => pure rs
  | none =>
    let rs := urls.map ofLocation
    Action.modifyFirst fun c => { c with alternateResources? := some rs }
    pure rs

/-- The PEM blocks of the chain. -/
def pemText : List Certificate → Except Error String
  | [] => .ok ""
  | c :: cs => do
    let first ← c.pem
    let rest ← pemText cs
    .ok (first ++ rest)

/-- The chain as a PEM text. -/
def pem (A : Authority σ) : Action (CertificateResource × σ) String := do
  Action.ofExcept (pemText (← chain A))

/-! ## Identifier and renewal information -/

/-- The hash function of identifiers. -/
def idAlgorithm : HashAlgorithm :=
  .sha256

/-- The identifier of the first certificate of a chain, which the second one issued. -/
def certIdOf : List Certificate → Except Error String
  | c :: issuer :: _ =>
    CertId.text (.text idAlgorithm.name) (.certificate issuer) (.int c.serial)
  | _ => .error (.plain .protocol "Certificate has no issuer")

/-- The identifier of the certificate. -/
def certId (A : Authority σ) : Action (CertificateResource × σ) String := do
  match (← Action.get).1.certId? with
  | some i => pure i
  | none =>
    let i ← Action.ofExcept (certIdOf (← chain A))
    Action.modifyFirst fun c => { c with certId? := some i }
    pure i

/-- The name of the resource with renewal information. -/
def renewalResource : String :=
  "renewalInfo"

/-- A name within a directory of addresses. -/
def addressIn (base name : String) : String :=
  if base.toList.getLast? = some '/' then base ++ name else base ++ "/" ++ name

/-- The address of the renewal information, if the authority provides it. -/
def renewalLocation? (A : Authority σ) : Action (CertificateResource × σ) (Option String) := do
  match ← loading (Action.onSecond (A.resourceUrl? renewalResource)) with
  | .null => pure none
  | .text base =>
    let i ← certId A
    pure (some (addressIn base i))
  | .bytes _ => Action.fail (.plain .wrongType "address is no text")
  | _ => Action.fail (.plain .noOperation "address is no text")

/-- The authority provides renewal information. -/
def hasRenewalInfo (A : Authority σ) : Action (CertificateResource × σ) Bool := do
  let l ← renewalLocation? A
  pure l.isSome

/-- The renewal information at a location. -/
def fetchRenewalInfo (A : Authority σ) (location : String) : Action σ RenewalInfo := do
  let r ← (RenewalInfo.fetch A location).mapError (Error.asLoadFailure "RenewalInfo" location)
  pure ⟨location, some r⟩

/-- The renewal information, fetched if it is not known. -/
def renewalInfo (A : Authority σ) : Action (CertificateResource × σ) RenewalInfo := do
  match (← Action.get).1.renewalInfo? with
  | some i => pure i
  | none =>
    match ← renewalLocation? A with
    | none => Action.fail (.unsupported renewalResource)
    | some l =>
      let i ← Action.onSecond (fetchRenewalInfo A l)
      Action.modifyFirst fun c => { c with renewalInfo? := some i }
      pure i

/-! ## Revocation -/

/-- Revoke the certificate on behalf of the account. -/
def revoke (A : Authority σ) (reason : Value) : Action (CertificateResource × σ) Unit := do
  let c ← certificate A
  Action.onSecond (Revocation.revokeWithAccount A (.certificate c) reason)

end CertificateResource

end AcmeClient
