import AcmeClient.Client.Directory

/-!
# Signed requests

RFC 8555, section 6: a signed request names its address and carries a nonce in its protected header.
A nonce is used once and not later than two minutes after it was received. If the authority rejects
the nonce, the request is repeated once.

* `Client.freshen`: get a nonce if there is no usable one;
* `Client.protect`: the protected header of a request;
* `Client.postOnce`, `Client.post`: one signed request, and with its repetition.
-/

namespace AcmeClient

namespace Client

/-- The greatest age of a nonce in seconds. -/
def nonceAge : Int :=
  120

/-- There is no usable nonce. -/
def needsNonce (s : State) : Bool :=
  !s.nonce.isTrue || s.surroundings.clock > s.nonceTime + nonceAge

/-- Get a nonce if there is no usable one. -/
def freshen (c : Client) : Action State Unit := do
  if needsNonce (← Action.get) then
    let url ← c.resourceUrl "newNonce"
    let _ ← fetch url

/-- Take the nonce out of the memory. -/
def takeNonce : Action State Value := fun s =>
  (.ok s.nonce, { s with nonce := .null })

/-- The text of a value that is signed. -/
def signedText (v : Value) : Except Error String :=
  match Json.write? v with
  | some s => .ok s
  | none => .error (.plain .wrongType "value without text")

/-- The payload of a request; null stands for none. -/
def payloadText : Value → Except Error String
  | .null => .ok ""
  | v => signedText v

/-- The protected header of a request. A request with a key of its own carries the public key, other
requests name the account if it is known. -/
def protect (c : Client) (given : Members) (nonce url account : Value) (key : Option PrivateKey) :
    Except Error Members :=
  let header := Members.set (Members.set given "nonce" nonce) "url" url
  match key with
  | none =>
    let header := Members.set header "alg" (.text c.publicKey.algorithm)
    .ok (if account.isTrue then Members.set header "kid" account else header)
  | some k => do
    let p ← k.publicKey
    .ok (Members.set (Members.set header "alg" (.text p.algorithm)) "jwk" (.object p.jwk))

/-- Sign a payload under a protected header. -/
def sign (k : PrivateKey) (header : Members) (payload : String) : Except Error Jws := do
  let p ← k.publicKey
  let text ← signedText (.object header)
  let signature ← k.sign (Jws.input text payload)
  .ok ⟨header, text, payload, signature, p⟩

/-- Send a signed request once. The result holds the protected header too. -/
def postOnce (c : Client) (url payload : Value) (given : Members) (raw : Bool)
    (key : Option PrivateKey) (accept : Option String) : Action State (Members × Answer) := do
  let text ← Action.ofExcept (payloadText payload)
  c.freshen
  let nonce ← takeNonce
  let header ← Action.ofExcept (c.protect given nonce url (← Action.get).account key)
  let jws ← Action.ofExcept (sign (key.getD c.key) header text)
  let a ← send url accept (some jws) raw
  pure (header, a)

/-- The type of problem that stands for a rejected nonce. -/
def badNonce : String :=
  "urn:ietf:params:acme:error:badNonce"

/-- The answer says that the nonce was rejected. -/
def rejectsNonce (a : Answer) : Except Error Bool :=
  if a.code = 400 then do
    let ms ← Problem.ofBody a.body
    match Members.get ms "type" with
    | .text t => .ok (t == badNonce)
    | _ => .ok false
  else .ok false

/-- Send a signed request, and once more with a new nonce if the nonce is rejected. -/
def post (c : Client) (url payload : Value) (given : Members) (raw : Bool)
    (key : Option PrivateKey) (accept : Option String) : Action State Answer := do
  let (header, a) ← c.postOnce url payload given raw key accept
  if ← Action.ofExcept (rejectsNonce a) then
    say (Log.warning ("Nonce rejected by " ++ c.ca.display ++ ", retrying request"))
    let (_, b) ← c.postOnce url payload header raw key accept
    pure b
  else pure a

end Client

end AcmeClient
