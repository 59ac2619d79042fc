import AcmeClient.Error
import AcmeClient.Json.Reader
import AcmeClient.Text.Utf8

/-!
# Problem documents

A rejection comes with a problem document: an object with a `type` and a `detail`. The document may
arrive as octets, as text or as a value that was read already; anything else counts as the detail.

* `Problem.ofBody`: the problem document of a response body;
* `Problem.rejection`: the error for a rejected request.
-/

namespace AcmeClient

/-- The error for a JSON text that is refused. -/
def Json.Fault.error : Json.Fault → Error
  | malformed => .plain .value "malformed JSON"
  | longInteger => .plain .value "integer with too many digits"
  | deep => .plain .tooDeep "nesting too deep"

namespace Problem

/-- The members of a value that is an object; any other value has none. -/
def membersOf : Value → Members
  | .object ms => ms
  | _ => []

/-- The problem document of a text: the JSON object that it is, or the text itself as detail. -/
def ofText (s : String) : Except Error Members :=
  match Json.read s with
  | .ok v => .ok (membersOf v)
  | .error .deep => .error (Json.Fault.deep.error)
  | .error _ => .ok (if s = "" then [] else [("detail", .text s)])

/-- The problem document of a response body. -/
def ofBody : Value → Except Error Members
  | .bytes b => ofText (Utf8.decodeLossy b)
  | .text s => ofText s
  | v => .ok (membersOf v)

/-- The detail that is shown: the `detail`, else the `type`. -/
def detail (ms : Members) : Value :=
  ((ms.get "detail").orElse (ms.get "type")).orElse (.text "no details")

/-- The error for a request that was answered by `code` and `body`. -/
def rejection (message : String) (code body : Value) : Except Error Error := do
  let ms ← ofBody body
  .ok (.transport (message ++ " (" ++ code.display ++ "): " ++ (detail ms).display) code ms)

/-- Fail with the error for a rejected request. -/
def reject {α : Type} (message : String) (code body : Value) : Except Error α :=
  match rejection message code body with
  | .ok e => .error e
  | .error e => .error e

end Problem

end AcmeClient
