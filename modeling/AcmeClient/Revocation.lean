import AcmeClient.Authority
import AcmeClient.Revocation.Payload

/-!
# Revocation

A certificate is revoked on behalf of the account or with the key pair of the certificate.

* `Revocation.revokeWithAccount`, `Revocation.revokeWithKey`.
-/

namespace AcmeClient

namespace Revocation

variable {σ : Type}

/-- The name of the resource that takes revocation requests. -/
def resource : String :=
  "revokeCert"

/-- Revoke a certificate by a request signed with a given key or, without one, with the account
key. -/
def revoke (A : Authority σ) (means : String) (key : Option PrivateKey) (c : Certificate.Given)
    (reason : Value) : Action σ Unit := do
  let request ← Action.ofExcept (payload c reason)
  let serial ← Action.ofExcept c.serialText
  A.say (Log.info ("Revoking certificate " ++ serial ++ " using the " ++ means))
  let url ← A.resourceUrl resource
  let _ ← A.sendSigned url (.object request) key
  A.say (Log.info "Revocation successful")

/-- Revoke a certificate on behalf of the account. -/
def revokeWithAccount (A : Authority σ) (c : Certificate.Given) (reason : Value) : Action σ Unit :=
  revoke A "account key" none c reason

/-- Revoke a certificate with its own key. -/
def revokeWithKey (A : Authority σ) (key : Option PrivateKey) (c : Certificate.Given)
    (reason : Value) : Action σ Unit :=
  revoke A "domain key" key c reason

end Revocation

end AcmeClient
