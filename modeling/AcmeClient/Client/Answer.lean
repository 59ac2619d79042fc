import AcmeClient.Client.State
import AcmeClient.Problem

/-!
# Answers to requests

* `Client.Answer`: status, content and headers of the answer to a request;
* `Client.Answer.ofReply`: what a reply means;
* `Client.keepNonce`: every response may carry the nonce for a later request;
* `Client.send`: one request with its answer.
-/

namespace AcmeClient

namespace Client

/-- The answer to a request. -/
structure Answer where
  code : Int
  body : Value
  headers : Headers
deriving Inhabited

namespace Answer

/-- The status that stands for no response. -/
def silenceCode : Int :=
  999

/-- The document of a text. -/
def document (s : String) : Except Error Value :=
  match Json.read s with
  | .ok v => .ok v
  | .error .malformed =>
    .error (.caused .protocol "Could not parse non-raw result (expected JSON)"
      Json.Fault.malformed.error)
  | .error f => .error f.error

/-- The content of a response as a document; no content is the empty text. -/
def content (b : Octets) : Except Error Value :=
  match Utf8.decode? b with
  | none => .error (.plain .undecodable "not a text")
  | some s => if s = "" then .ok (.text s) else document s

/-- What a reply means. The content of a failure is a text; other content is left as octets if `raw`
is set and read as a document if not. -/
def ofReply (raw : Bool) : Reply → Except Error Answer
  | .silence reason => .ok ⟨silenceCode, .text reason, .table []⟩
  | .response code headers b true =>
    .ok ⟨code, .text (Utf8.decodeLossy b), if headers.isPresent then headers else .table []⟩
  | .response code headers b false =>
    if raw then .ok ⟨code, .bytes b, headers⟩
    else do
      let v ← content b
      .ok ⟨code, v, headers⟩

/-- The request was refused. -/
def isRefusal (a : Answer) : Bool :=
  a.code ≥ 400

end Answer

/-- The name of the header that carries a nonce. -/
def nonceHeader : String :=
  "Replay-Nonce"

/-- Keep the nonce of a response for a later request. -/
def keepNonce (h : Headers) (s : State) : State :=
  match h.find? nonceHeader with
  | some v => { s with nonce := v, nonceTime := s.surroundings.clock }
  | none => s

/-- Send a request and keep the nonce of its reply. -/
def exchange (q : Request) : Action State Reply := fun s =>
  let (reply, w) := s.surroundings.exchange q
  (.ok reply, keepNonce reply.headers { s with surroundings := w })

/-- Send a request to the address in a value, and read the answer. -/
def send (url : Value) (accept : Option String) (content : Option Jws) (raw : Bool) :
    Action State Answer := do
  match Target.read? url.display with
  | none => Action.fail Url.malformed
  | some t =>
    let reply ← exchange ⟨t.text, accept, content⟩
    Action.ofExcept (Answer.ofReply raw reply)

/-- Fetch the document at an address. -/
def fetch (url : Value) : Action State Answer :=
  send url none none false

end Client

end AcmeClient
