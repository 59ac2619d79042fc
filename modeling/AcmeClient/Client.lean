import AcmeClient.Authority
import AcmeClient.Client.Account

/-!
# What a client does

* `Client.requestCertificate`, `Client.requestResource`, `Client.sendSigned`: the requests that are
  made for others;
* `Client.authority`: the client as an authority.
-/

namespace AcmeClient

namespace Client

/-- The kind of content of certificate chains. -/
def chainType : String :=
  "application/pem-certificate-chain"

/-- The content of an answer and its headers; a refusal is an error with a message. -/
def accepted (message : String) (a : Answer) : Except Error (Value × Headers) :=
  if a.isRefusal then Problem.reject message (.int a.code) a.body else .ok (a.body, a.headers)

/-- The certificate chain at an address, as it is sent. -/
def requestCertificate (c : Client) (url : String) : Action State (Value × Headers) := do
  c.login
  let a ← c.post (.text url) .null [] true none (some chainType)
  Action.ofExcept (accepted "Error downloading certificate chain" a)

/-- The document at an address. -/
def requestResource (url : String) : Action State (Value × Headers) := do
  let a ← fetch (.text url)
  Action.ofExcept (accepted ("Error fetching " ++ url) a)

/-- The answer to a request signed by a given key or, on behalf of the account, by the account
key. -/
def sendSigned (c : Client) (url payload : Value) (key : Option PrivateKey) :
    Action State (Value × Headers) := do
  if key.isNone then c.login
  let a ← c.post url payload [] false key none
  Action.ofExcept (accepted ("Request to " ++ url.display ++ " failed") a)

/-- The client as an authority. -/
def authority (c : Client) : Authority State where
  now s := s.surroundings.clock
  note e s := { s with surroundings := s.surroundings.note e }
  resourceUrl? := c.resourceUrl?
  requestCertificate := c.requestCertificate
  requestResource := requestResource
  sendSigned := c.sendSigned

end Client

end AcmeClient
