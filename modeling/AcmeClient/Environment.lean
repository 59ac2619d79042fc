import AcmeClient.Authority.Instance
import AcmeClient.CertificateResource
import AcmeClient.Files
import AcmeClient.Key.Reader

/-!
# Working with settings

Settings lead to an authority. Equal settings lead to the same authority, which is made when it is
first asked for; it keeps what it has learned.

* `Environment`: surroundings, files and authorities;
* `Environment.authority`: one of the authorities;
* `Environment.authorityFor`: the authority for settings;
* `Environment.revokeFile`: revoke the certificate in a file.
-/

namespace AcmeClient

/-- Surroundings, files and authorities. -/
structure Environment where
  surroundings : Surroundings
  files : Files
  instances : List Instance
  /-- The numbers of the instances that were made for settings, with the text of the settings. -/
  registry : List (String × Nat)
deriving Inhabited

namespace Environment

variable {α : Type}

/-- Tell the user something. -/
def note (e : Log.Entry) (v : Environment) : Environment :=
  { v with surroundings := v.surroundings.note e }

/-- The error for an authority that there is not. -/
def noInstance : Error :=
  .plain .noOperation "no authority"

/-- Do something with one of the authorities. -/
def act (n : Nat) (f : Instance.Use α) : Action Environment α := fun v =>
  match v.instances[n]? with
  | none => (.error noInstance, v)
  | some i =>
    let (r, j, s) := i.act f v.surroundings
    (r, { v with instances := v.instances.set n j, surroundings := s })

/-- One of the authorities. -/
def authority (n : Nat) : Authority Environment where
  now v := v.surroundings.clock
  note := note
  resourceUrl? name := act n fun _ A => A.resourceUrl? name
  requestCertificate url := act n fun _ A => A.requestCertificate url
  requestResource url := act n fun _ A => A.requestResource url
  sendSigned url payload key := act n fun _ A => A.sendSigned url payload key

/-- Tell the user something. -/
def say (e : Log.Entry) : Action Environment Unit :=
  Action.modify (note e)

/-! ## Files of certificates and keys -/

/-- The text of the file that a value names. -/
def readFile (path : Value) : Action Environment String := do
  Action.ofExcept ((← Action.get).files.readValue path)

/-- The certificate in a file. -/
def readCertificate (path : Value) : Action Environment Certificate := do
  let s ← readFile path
  Action.ofExcept (Certificate.ofPem s.toList)

/-- The private key in a file. -/
def readKey (path : Value) : Action Environment PrivateKey := do
  let s ← readFile path
  Action.ofExcept (PrivateKey.ofPem s.toList)

/-! ## Authorities for settings -/

/-- The text that equal settings have in common. -/
def settingsText (settings : Value) : Except Error String :=
  match Json.writeSorted? settings with
  | some s => .ok s
  | none => .error (.plain .wrongType "settings without text")

/-- The members of settings. -/
def settingsMembers : Value → Except Error Members
  | .object ms => .ok ms
  | _ => .error (.plain .wrongType "settings are no object")

/-- The file of the account key in settings. -/
def keyFileOf (settings : Members) : Except Error Value :=
  match Members.find? settings "account_key" with
  | some v => .ok v
  | none => .error (.plain .missingName "account_key")

/-- Add an authority for the settings with a text. -/
def register (text : String) (i : Instance) : Action Environment Nat := fun v =>
  (.ok v.instances.length,
    { v with instances := v.instances ++ [i], registry := v.registry ++ [(text, v.instances.length)] })

/-- Make the authority for settings with a text. -/
def makeAuthority (text : String) (settings : Value) : Action Environment Nat := do
  let ms ← Action.ofExcept (settingsMembers settings)
  let file ← Action.ofExcept (keyFileOf ms)
  say (Log.info ("Reading account key from " ++ file.display))
  let key ← readKey file
  let i ← Action.ofExcept (Instance.ofSettings ms key)
  register text i

/-- The number of the authority for settings. -/
def authorityFor (settings : Value) : Action Environment Nat := do
  let text ← Action.ofExcept (settingsText settings)
  match (← Action.get).registry.lookup text with
  | some n => pure n
  | none => makeAuthority text settings

/-- The certificate at an address, with the number of the authority for settings. -/
def bindCertificate (settings : Value) (url : String) :
    Action Environment (Nat × CertificateResource) := do
  let n ← authorityFor settings
  pure (n, CertificateResource.ofLocation url)

/-- Revoke the certificate in a file, with the key in another file or on behalf of the account. -/
def revokeFile (file settings reason keyFile : Value) : Action Environment Unit := do
  let c ← readCertificate file
  let n ← authorityFor settings
  if keyFile.isTrue then
    say (Log.info ("Revoking " ++ file.display ++ " with the certificate key from " ++ keyFile.display))
    let key ← readKey keyFile
    Revocation.revokeWithKey (authority n) (some key) (.certificate c) reason
  else
    say (Log.info ("Revoking " ++ file.display ++ " with the account key"))
    Revocation.revokeWithAccount (authority n) (.certificate c) reason

end Environment

end AcmeClient
