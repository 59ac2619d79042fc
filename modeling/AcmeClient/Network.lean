import AcmeClient.Headers
import AcmeClient.Json.Writer
import AcmeClient.Key.Public
import AcmeClient.Text.Blank
import AcmeClient.Url

/-!
# Requests and replies

Requests are made without content, or carry a signed object. Each is answered by a response, which
may count as a failure, or by no response at all.

* `Jws`: RFC 7515: a signed object with its protected header and its payload;
* `Request`, `Target`: requests and where they go;
* `Reply`: what comes back;
* `Exchange`: a request with its reply.
-/

namespace AcmeClient

/-- A signed object. -/
structure Jws where
  /-- The members of the protected header. -/
  header : Members
  /-- The protected header as it was signed. -/
  headerText : String
  /-- The payload as it was signed. -/
  payload : String
  signature : Octets
  /-- The public key that the signature can be verified with. -/
  signer : PublicKey
deriving Inhabited

namespace Jws

/-- A text in the URL alphabet of base 64. -/
def part (s : String) : String :=
  Base64.encodeUrl (Octets.ofString s)

/-- What is signed for a protected header and a payload. -/
def input (header payload : String) : String :=
  part header ++ "." ++ part payload

/-- The text that is sent. -/
def text (j : Jws) : String :=
  (Json.write? (.object [("protected", .text (part j.headerText)), ("payload", .text (part j.payload)),
    ("signature", .text (Base64.encodeUrl j.signature))])).getD ""

end Jws

/-- Where a request goes. -/
structure Target where
  /-- The address without its fragment. -/
  address : List Char
  fragment : List Char
deriving DecidableEq, Inhabited

namespace Target

/-- Without angle brackets around it and a mark in front. -/
def unwrap (s : List Char) : List Char :=
  let s := Text.trim s
  let s := if s.head? = some '<' ∧ s.getLast? = some '>' then Text.trim ((s.drop 1).dropLast) else s
  if "URL:".toList.isPrefixOf s then Text.trim (s.drop 4) else s

/-- An address and its fragment, which is behind the last hash. -/
def splitFragment (s : List Char) : Target :=
  if s.contains '#' then
    let fragment := Text.afterLast '#' s
    ⟨s.take (s.length - fragment.length - 1), fragment⟩
  else ⟨s, []⟩

/-- The address starts with the name of a scheme. -/
def hasScheme (s : List Char) : Bool :=
  let name := s.takeWhile fun c => c ≠ '/' ∧ c ≠ ':'
  !name.isEmpty && (s.drop name.length).head? == some ':'

/-- The target of an address; there is none without a scheme or with a malformed host. -/
def read? (s : String) : Option Target :=
  let t := splitFragment (unwrap s.toList)
  if hasScheme t.address ∧ (Url.split? [] t.address).isSome then some t else none

/-- The whole address. -/
def text (t : Target) : String :=
  String.ofList (t.address ++ Url.marked '#' t.fragment)

end Target

/-- A request. -/
structure Request where
  url : String
  /-- The kind of content that is asked for. -/
  accept : Option String
  /-- The content; without it nothing is sent. -/
  content : Option Jws
deriving Inhabited

namespace Request

/-- The kind of content that requests carry. -/
def contentType : String :=
  "application/jose+json"

/-- The method of a request. -/
def method (r : Request) : String :=
  match r.content with
  | some _ => "POST"
  | none => "GET"

/-- The headers of a request. -/
def headers (r : Request) : List (String × String) :=
  ("content-type", contentType) :: match r.accept with
    | some a => [("accept", a)]
    | none => []

end Request

/-- What comes back for a request. -/
inductive Reply where
  /-- A response; it may count as a failure. -/
  | response (code : Int) (headers : Headers) (body : Octets) (failure : Bool)
  /-- No response, for a reason. -/
  | silence (reason : String)
deriving Inhabited

namespace Reply

/-- The reply if an address leads nowhere. -/
def unreachable (reason : String) : Reply :=
  .silence ("<urlopen error " ++ reason ++ ">")

/-- The wording of a failure of the operating system: number, description, and the files that are
concerned. -/
def systemReason : List Value → String
  | [] => ""
  | [a] => a.display
  | number :: description :: files =>
    let head := "[Errno " ++ number.display ++ "] " ++ description.display
    match files with
    | [] => head
    | .null :: _ => head
    | [f] => head ++ ": " ++ f.quoted
    | [f, _] => head ++ ": " ++ f.quoted
    | f :: _ :: .null :: _ => head ++ ": " ++ f.quoted
    | f :: _ :: g :: _ => head ++ ": " ++ f.quoted ++ " -> " ++ g.quoted

/-- The headers of a reply. -/
def headers : Reply → Headers
  | response _ h _ _ => h
  | silence _ => .missing

end Reply

/-- A request with its reply, and when it was made. -/
structure Exchange where
  request : Request
  reply : Reply
  time : Int
deriving Inhabited

end AcmeClient
