import AcmeClient.Value

/-!
# Response headers

The headers of a response are fields, whose names are compared without regard to case and may occur
more than once, or a table with names as they are, or they are missing.

* `Headers`: headers;
* `Headers.find?`: the first value of a name;
* `Headers.all`: all values of a name;
* `Headers.isPresent`: whether there is anything.
-/

namespace AcmeClient

/-- The headers of a response. -/
inductive Headers where
  | missing
  | fields (fs : List (String × Value))
  | table (ms : Members)
deriving Inhabited

namespace Headers

/-- A name in lower case; names consist of ASCII characters. -/
def lower (s : String) : String :=
  String.ofList (s.toList.map Char.toLower)

/-- The values of a name among fields. -/
def valuesOf (name : String) (fs : List (String × Value)) : List Value :=
  (fs.filter fun f => lower f.1 = lower name).map (·.2)

/-- The first value of a name. -/
def find? (h : Headers) (name : String) : Option Value :=
  match h with
  | missing => none
  | fields fs => (valuesOf name fs).head?
  | table ms => ms.find? name

/-- The first value of a name, null if there is none. -/
def get (h : Headers) (name : String) : Value :=
  (h.find? name).getD .null

/-- All values of a name. A table holds a list of values, or a single one. -/
def all (h : Headers) (name : String) : List Value :=
  match h with
  | missing => []
  | fields fs => valuesOf name fs
  | table ms =>
    match ms.get name with
    | .null => []
    | .list vs => vs
    | v => [v]

/-- There is at least one header. -/
def isPresent : Headers → Bool
  | missing => false
  | fields fs => !fs.isEmpty
  | table ms => !ms.isEmpty

end Headers

end AcmeClient
