import AcmeClient.Key.Private
import AcmeClient.Surroundings

/-!
# Clients

RFC 8555: a client talks to one authority on behalf of one account key. It keeps the directory of
the authority, the address of its account, and the nonce for its next signed request.

* `Client`: the authority and the account key;
* `Client.Memory`, `Client.State`: what a client has learned, and its surroundings;
* `Client.ofConfig`: the client that a configuration describes.
-/

namespace AcmeClient

/-- An authority and an account key. -/
structure Client where
  /-- The address of the authority. -/
  ca : Value
  key : PrivateKey
  publicKey : PublicKey
deriving Inhabited

namespace Client

/-- What a client has learned. -/
structure Memory where
  /-- The directory, once it was fetched. -/
  directory : Option Members
  /-- The nonce for the next signed request, null if there is none. -/
  nonce : Value
  /-- When the nonce was received. -/
  nonceTime : Int
  /-- The address of the account, null if it is not known. -/
  account : Value
deriving Inhabited

/-- What a client has learned, and its surroundings. -/
structure State extends Memory where
  surroundings : Surroundings
deriving Inhabited

/-- A client that knows nothing but the address of its account. -/
def Memory.start (account : Value) : Memory :=
  ⟨none, .null, 0, account⟩

/-- The client that a configuration describes, with the address of its account. -/
def ofConfig (config : Members) (key : Option PrivateKey) : Except Error (Client × Value) := do
  let ca ← match Members.find? config "authority" with
    | some v => .ok v
    | none => .error (.plain .missingName "authority")
  let key := key.getD .foreign
  let publicKey ← key.publicKey
  .ok (⟨ca, key, publicKey⟩, Members.get config "account_url")

/-- Tell the user something. -/
def say (e : Log.Entry) : Action State Unit :=
  Action.modify fun s => { s with surroundings := s.surroundings.note e }

end Client

end AcmeClient
