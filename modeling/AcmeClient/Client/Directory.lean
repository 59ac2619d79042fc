import AcmeClient.Client.Answer

/-!
# The directory

RFC 8555, section 7.1.1: the directory names the addresses of the authority's resources. It is
fetched when it is first needed, and again as long as that fails.

* `Client.directory`: the directory;
* `Client.resourceUrl?`, `Client.resourceUrl`: the address of a resource.
-/

namespace AcmeClient

namespace Client

/-- The address of the directory. -/
def directoryUrl (c : Client) : Except Error Value :=
  match c.ca with
  | .text s => .ok (.text (s ++ "/directory"))
  | _ => .error (.plain .wrongType "address is no text")

/-- Report that the directory could not be fetched. -/
def refuseDirectory (c : Client) (a : Answer) : Action State Members := do
  say (Log.warning ("API directory retrieval failed (" ++ toString a.code ++ ") from " ++ c.ca.display))
  Action.ofExcept (Problem.reject "Could not retrieve directory" (.int a.code) a.body)

/-- Keep the directory in an answer. -/
def keepDirectory (c : Client) (a : Answer) : Action State Members :=
  match a.body with
  | .object ms =>
    if a.isRefusal then c.refuseDirectory a
    else do
      Action.modify fun s => { s with directory := some ms }
      pure ms
  | _ => c.refuseDirectory a

/-- The directory, fetched if it is not known. -/
def directory (c : Client) : Action State Members := do
  match (← Action.get).directory with
  | some ms => pure ms
  | none =>
    let url ← Action.ofExcept c.directoryUrl
    let a ← fetch url
    c.keepDirectory a

/-- The address of a resource in the directory, null if it is not there. -/
def resourceUrl? (c : Client) (name : String) : Action State Value := do
  let ms ← c.directory
  pure (Members.get ms name)

/-- The address of a resource, an error if it is not in the directory. -/
def resourceUrl (c : Client) (name : String) : Action State Value := do
  match ← c.resourceUrl? name with
  | .null => Action.fail (.unsupported name)
  | v => pure v

end Client

end AcmeClient
