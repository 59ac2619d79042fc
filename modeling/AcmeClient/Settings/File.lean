import AcmeClient.Files
import AcmeClient.Problem
import AcmeClient.Settings
import AcmeClient.Yaml

/-!
# Settings files

A settings file is written in JSON or YAML. A file that is missing or empty counts as one without
settings.

* `Settings.document`: the value of a settings file;
* `Settings.load`: the settings of an authority from a file and the caller's values.
-/

namespace AcmeClient

namespace Settings

/-- The value of the text of a settings file. -/
def document (s : String) : Except Error Value :=
  match Json.read s with
  | .ok v => .ok v
  | .error .deep => .error Json.Fault.deep.error
  | .error _ => Yaml.read s

/-- The settings file that is used by default. -/
def defaultFile : Value :=
  .text "/etc/acertlib/acertlib.conf"

/-- The directory that a file lies in. -/
def directoryOf (f : Files) (file : Value) : Except Error Value :=
  match file with
  | .text p =>
    let here := Path.ofParts ['/'] f.here
    .ok (.text (String.ofList (Path.parent (Path.absolute here p.toList))))
  | _ => .error (.plain .wrongType "not a path")

/-- The value names a file that exists. -/
def namesFile (f : Files) : Value → Except Error Bool
  | .text p => .ok (f.isFile p.toList)
  | .int _ => .ok false
  | .bool _ => .ok false
  | _ => .error (.plain .wrongType "not a path")

/-- The values in a settings file; without it there are none. -/
def fileValues (f : Files) (file : Value) : Except Error Value := do
  if ← namesFile f file then
    let v ← document (← f.readValue file)
    .ok (v.orElse (.object []))
  else .ok (.object [])

/-- The settings of an authority from a file and the caller's values. The work directory is that of
the file unless it is given. -/
def load (f : Files) (file workDirectory overrides : Value) : Except Error Settings := do
  let file := file.orElse defaultFile
  let directory ← if workDirectory.isTrue then .ok workDirectory else directoryOf f file
  let values ← fileValues f file
  read (if overrides.isTrue then [overrides] else []) values directory

end Settings

end AcmeClient
