import AcmeClient.Client.Signing

/-!
# The account

RFC 8555, section 7.3.1: the address of the account is looked up by its key. Accounts are never
created.

* `Client.login`: look up the account unless its address is known.
-/

namespace AcmeClient

namespace Client

/-- The payload that asks for an account that exists. -/
def lookupPayload : Value :=
  .object [("onlyReturnExisting", .bool true)]

/-- What the protected header of the look-up starts with. -/
def lookupHeader (c : Client) : Members :=
  [("alg", .text c.publicKey.algorithm), ("jwk", .object c.publicKey.jwk)]

/-- Keep the address of the account in an answer. -/
def keepAccount (c : Client) (a : Answer) : Action State Unit :=
  match if a.isRefusal then none else a.headers.find? "Location" with
  | some location => do
    Action.modify fun s => { s with account := location }
    say (Log.info ("Using account " ++ location.display ++ " on " ++ c.ca.display ++ "."))
  | none => Action.ofExcept (Problem.reject "Error looking up account" (.int a.code) a.body)

/-- Look up the account unless its address is known. -/
def login (c : Client) : Action State Unit := do
  if (← Action.get).account.isTrue then pure ()
  else
    let url ← c.resourceUrl "newAccount"
    let a ← c.post url lookupPayload c.lookupHeader false none none
    c.keepAccount a

end Client

end AcmeClient
