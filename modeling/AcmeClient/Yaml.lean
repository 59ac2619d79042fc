import AcmeClient.Yaml.Schema

/-!
# YAML

YAML 1.1 with the usual tags: what settings files are written in.

* `Yaml.read`: the value of a text.
-/

namespace AcmeClient

namespace Yaml

/-- The value of a text; a text without document is null. -/
def read (s : String) : Except Error Value := do
  let ts ← Token.all s.toList
  match ← Node.ofTokens? ts with
  | none => .ok .null
  | some node => node.value

end Yaml

end AcmeClient
