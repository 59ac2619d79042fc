import AcmeClient.Base64
import AcmeClient.Certificate

/-!
# Revocation requests

RFC 8555, section 7.6: a revocation request holds the certificate and may hold a reason.

* `Revocation.Reason`: the reasons of RFC 5280, section 5.3.1;
* `Revocation.payload`: the request for a certificate.
-/

namespace AcmeClient

namespace Revocation

/-- Why a certificate is revoked. -/
inductive Reason where
  | unspecified
  | keyCompromise
  | authorityCompromise
  | affiliationChanged
  | superseded
  | cessationOfOperation
  | certificateHold
  | removedFromList
  | privilegeWithdrawn
  | attributeCompromise
deriving DecidableEq, Inhabited

namespace Reason

/-- All reasons. -/
def all : List Reason :=
  [unspecified, keyCompromise, authorityCompromise, affiliationChanged, superseded,
    cessationOfOperation, certificateHold, removedFromList, privilegeWithdrawn, attributeCompromise]

/-- The number of a reason; 7 is not in use. -/
def code : Reason → Nat
  | unspecified => 0
  | keyCompromise => 1
  | authorityCompromise => 2
  | affiliationChanged => 3
  | superseded => 4
  | cessationOfOperation => 5
  | certificateHold => 6
  | removedFromList => 8
  | privilegeWithdrawn => 9
  | attributeCompromise => 10

/-- The reason with a number. -/
def ofCode? (n : Int) : Option Reason :=
  all.find? fun r => (r.code : Int) = n

/-- The reason in a value that is equal to a number. -/
def ofValue? (v : Value) : Option Reason :=
  v.toInt?.bind ofCode?

end Reason

/-- The member for the reason; null stands for no reason. -/
def reasonMember (reason : Value) : Except Error Members :=
  match reason with
  | .null => .ok []
  | v =>
    match Reason.ofValue? v with
    | some r => .ok [("reason", .int r.code)]
    | none => .error (.plain .value "unknown reason")

/-- The revocation request for a certificate. -/
def payload (c : Certificate.Given) (reason : Value) : Except Error Members := do
  let der ← c.encode
  let tail ← reasonMember reason
  .ok (("certificate", .text (Base64.encodeUrl der)) :: tail)

end Revocation

end AcmeClient
