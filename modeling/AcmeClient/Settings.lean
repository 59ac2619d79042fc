import AcmeClient.Error
import AcmeClient.Path

/-!
# Settings

The settings of an authority come from layers: first those of the caller, then the settings file,
then defaults. The first layer that has a name decides, also when it has it with the value null.

* `Settings`: the settings of an authority;
* `Settings.local?`: the value of a name in the caller's layers;
* `Settings.value`, `Settings.update`: the value of a name in all layers, and an object that takes
  it;
* `Settings.read`: the settings of an authority.
-/

namespace AcmeClient

/-- The settings of an authority. -/
structure Settings where
  /-- The version of the authority's interface. -/
  api : Value
  /-- The address of the authority. -/
  authority : Value
  /-- The file of the account key. -/
  accountKey : Value
  /-- The address of the account, null if it has to be looked up. -/
  accountUrl : Value
deriving Inhabited

namespace Settings

/-- Settings as an object. -/
def members (s : Settings) : Members :=
  [("api", s.api), ("authority", s.authority), ("account_key", s.accountKey),
    ("account_url", s.accountUrl)]

/-- The error for a layer that does not hold names. -/
def noLayer : Error :=
  .plain .wrongType "no layer of settings"

/-- The value is a given text. -/
def isText (name : String) : Value → Bool
  | .text s => s == name
  | _ => false

/-- The value of a name in one layer. A text or a list in place of an object is only accepted as
long as the name does not occur in it. -/
def inLayer (name : String) : Value → Except Error (Option Value)
  | .object ms => .ok (Members.find? ms name)
  | .text s =>
    if Octets.hasInfix (Octets.ofString name) (Octets.ofString s) then .error noLayer else .ok none
  | .list xs => if xs.any (isText name) then .error noLayer else .ok none
  | _ => .error noLayer

/-- The value of a name in the first layer that has it; every layer is looked at. -/
def local? (name : String) : List Value → Except Error (Option Value)
  | [] => .ok none
  | l :: ls => do
    let first ← inLayer name l
    let rest ← local? name ls
    .ok (first.or rest)

/-- The value of a name in the settings file, or the default. -/
def inFile (name : String) (default : Value) : Value → Except Error Value
  | .object ms => .ok ((Members.find? ms name).getD default)
  | _ => .error (.plain .noOperation "settings are no object")

/-- The value of a name: from the caller's layers, from the file, or the default. -/
def value (name : String) (layers : List Value) (file default : Value) : Except Error Value := do
  match ← local? name layers with
  | some v => .ok v
  | none => inFile name default file

/-- Set a name in an object to its value in all layers. -/
def update (config : Value) (name : String) (layers : List Value) (file default : Value) :
    Except Error Value := do
  let v ← value name layers file default
  match config with
  | .object ms => .ok (.object (Members.set ms name v))
  | _ => .error noLayer

/-- The layers in a value. The names of an object and the characters of a text are layers too. -/
def layers : Value → Except Error (List Value)
  | .list xs => .ok xs
  | .object ms => .ok (ms.map fun p => .text p.1)
  | .text s => .ok (s.toList.map fun c => .text (String.singleton c))
  | .bytes b => .ok (b.map fun x => .int x.toNat)
  | _ => .error noLayer

/-- The version of the interface that is used by default. -/
def defaultApi : Value :=
  .text "v2"

/-- The authority that is used by default. -/
def defaultAuthority : Value :=
  .text "https://acme-v02.api.letsencrypt.org"

/-- The file of the account key in a directory. -/
def keyFile : Value → Except Error Value
  | .text d => .ok (.text (String.ofList (Path.join d.toList "account.key".toList)))
  | _ => .error (.plain .wrongType "directory is no text")

/-- The settings of an authority. The account key is in the work directory by default. -/
def read (layers : List Value) (file workDirectory : Value) : Except Error Settings := do
  let api ← value "api" layers file defaultApi
  let authority ← value "authority" layers file defaultAuthority
  let accountKey ← value "account_key" layers file (← keyFile workDirectory)
  let accountUrl ← value "account_url" layers file .null
  .ok ⟨api, authority, accountKey, accountUrl⟩

end Settings

end AcmeClient
