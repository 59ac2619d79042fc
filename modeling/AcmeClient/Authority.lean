import AcmeClient.Action
import AcmeClient.Headers
import AcmeClient.Key.Private
import AcmeClient.Log

/-!
# Authorities

An authority has a directory of resources, hands out certificates and other documents, and takes
signed requests. Every access may change its state `σ`.

* `Authority`: what can be asked of an authority;
* `Authority.resourceUrl`: the address of a resource that has to be on offer;
* `Authority.general`: the authority that nothing can be asked of.
-/

namespace AcmeClient

/-- What can be asked of an authority with states `σ`. -/
structure Authority (σ : Type) where
  /-- The time in seconds since the start of 1970. -/
  now : σ → Int
  /-- Write a message to the user. -/
  note : Log.Entry → σ → σ
  /-- The address of a resource in the directory, null if it is not on offer. -/
  resourceUrl? : String → Action σ Value
  /-- The chain of a certificate as it is sent, with the headers of the response. -/
  requestCertificate : String → Action σ (Value × Headers)
  /-- A document that anybody may read, with the headers of the response. -/
  requestResource : String → Action σ (Value × Headers)
  /-- The answer to a request with a payload, signed by a given key or by the account key. -/
  sendSigned : Value → Value → Option PrivateKey → Action σ (Value × Headers)

namespace Authority

variable {σ : Type}

/-- Write a message to the user. -/
def say (A : Authority σ) (e : Log.Entry) : Action σ Unit :=
  Action.modify (A.note e)

/-- The time as a point of the calendar. -/
def clock (A : Authority σ) : Action σ DateTime := do
  match DateTime.ofEpoch? (A.now (← Action.get)) with
  | some t => pure t
  | none => Action.fail (.plain .outOfRange "time out of range")

/-- The address of a resource, an error if it is not on offer. -/
def resourceUrl (A : Authority σ) (name : String) : Action σ Value := do
  match ← A.resourceUrl? name with
  | .null => Action.fail (.unsupported name)
  | v => pure v

/-- The error for a request to an authority that nothing can be asked of. -/
def unspecified : Error :=
  .plain .abstractOperation ""

/-- The authority that nothing can be asked of; only its clock and its messages are known. -/
def general (now : σ → Int) (note : Log.Entry → σ → σ) : Authority σ where
  now := now
  note := note
  resourceUrl? _ := Action.fail unspecified
  requestCertificate _ := Action.fail unspecified
  requestResource _ := Action.fail unspecified
  sendSigned _ _ _ := Action.fail unspecified

end Authority

end AcmeClient
