import AcmeClient.Authority
import AcmeClient.Surroundings

/-!
# Authorities that answer from tables

For rehearsals: the directory, the certificates and the other documents of an authority are tables,
and every request is written down. Requests do not leave the program.

* `Scripted`: the tables and the requests so far;
* `Scripted.authority`: the authority that answers from them.
-/

namespace AcmeClient

/-- A request to an authority that answers from tables. -/
inductive Scripted.Call where
  | certificate (url : String)
  | resource (url : String)
  /-- A signed request, with the algorithm of the key if one is given. -/
  | signed (url payload : Value) (algorithm : Option String)
deriving Inhabited

/-- The tables of an authority, and the requests so far. -/
structure Scripted where
  directory : Members
  /-- Why the directory cannot be read, if it cannot. -/
  directoryFault : Option Error
  certificates : Routes (Except Error (Value × Headers))
  resources : Routes (Except Error (Value × Headers))
  /-- The outcomes of signed requests to any address. -/
  signed : Routes (Except Error (Value × Headers))
  calls : List Scripted.Call
deriving Inhabited

namespace Scripted

/-- Write a request down. -/
def recordCall (c : Call) : Action (Scripted × Surroundings) Unit :=
  Action.modifyFirst fun t => { t with calls := t.calls ++ [c] }

/-- The outcome for an address that is not in a table. -/
def missing (url : String) : Except Error (Value × Headers) :=
  .error (.transport ("Error fetching " ++ url) (.int 404) [])

/-- The next outcome for an address. -/
def take (table : Scripted → Routes (Except Error (Value × Headers)))
    (put : Routes (Except Error (Value × Headers)) → Scripted → Scripted) (url : String)
    (fallback : Except Error (Value × Headers)) : Action (Scripted × Surroundings) (Value × Headers) :=
  fun (t, s) =>
    let (outcome, routes) := (table t).next url
    (outcome.getD fallback, (put routes t, s))

/-- The address of a resource in the directory. -/
def resourceUrl? (name : String) : Action (Scripted × Surroundings) Value := do
  let (t, _) ← Action.get
  match t.directoryFault with
  | some e => Action.fail e
  | none => pure (Members.get t.directory name)

/-- The next outcome for a certificate. -/
def requestCertificate (url : String) : Action (Scripted × Surroundings) (Value × Headers) := do
  recordCall (.certificate url)
  take (·.certificates) (fun r t => { t with certificates := r }) url (missing url)

/-- The next outcome for a document. -/
def requestResource (url : String) : Action (Scripted × Surroundings) (Value × Headers) := do
  recordCall (.resource url)
  take (·.resources) (fun r t => { t with resources := r }) url (missing url)

/-- The address under which the outcomes of signed requests are kept. -/
def anyAddress : String :=
  ""

/-- The next outcome of a signed request. -/
def sendSigned (url payload : Value) (key : Option PrivateKey) :
    Action (Scripted × Surroundings) (Value × Headers) := do
  let algorithm ← match key with
    | none => pure none
    | some k =>
      let p ← Action.ofExcept k.publicKey
      pure (some p.algorithm)
  recordCall (.signed url payload algorithm)
  take (·.signed) (fun r t => { t with signed := r }) anyAddress (.ok (.object [], .table []))

/-- The authority that answers from the tables. -/
def authority : Authority (Scripted × Surroundings) where
  now p := p.2.clock
  note e p := (p.1, p.2.note e)
  resourceUrl? := resourceUrl?
  requestCertificate := requestCertificate
  requestResource := requestResource
  sendSigned := sendSigned

end Scripted

end AcmeClient
