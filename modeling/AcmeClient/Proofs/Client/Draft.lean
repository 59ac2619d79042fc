import AcmeClient.Proofs.Client.Posting

/-!
# What signed requests say

There are three purposes of a signed request: to look up the account, to act on behalf of the
account, and to act with a key of its own. The purpose decides about the protected header.

* `Client.Draft`: what a signed request is to say, with the key it is signed by and its header;
* `Client.Draft.Fits`: the states in which a client sends such a request;
* `Client.Draft.Written`: the signed request that is written for a draft;
* `Client.Draft.header_of_protect`: the header of the first attempt and of its repetition.
-/

namespace AcmeClient

/-- The protected header starts with the public key, as only those of look-ups do. -/
def Jws.isLookup (j : Jws) : Bool :=
  ["alg", "jwk"].isPrefixOf (j.header.map Prod.fst)

/-- The address of the account that the answer to a look-up brings. -/
def Exchange.account? (e : Exchange) : Option Value :=
  match e.request.content with
  | none => none
  | some j =>
    if j.isLookup then
      match Client.Answer.ofReply false e.reply with
      | .ok a => if a.isRefusal then none else a.headers.find? "Location"
      | .error _ => none
    else none

/-- The addresses of accounts that look-ups brought. -/
def History.accounts (es : History) : List Value :=
  es.filterMap Exchange.account?

namespace Client

/-- Why a request is signed. -/
inductive Purpose where
  /-- To look up the account. -/
  | lookup
  /-- To act on behalf of the account. -/
  | account
  /-- To act with a key of its own. -/
  | key (k : PrivateKey)

/-- What a signed request is to say. -/
structure Draft where
  purpose : Purpose
  url : Value
  payload : Value

namespace Draft

variable (c : Client) (d : Draft)

/-- The key of its own, if it has one. -/
def key? : Option PrivateKey :=
  match d.purpose with
  | .key k => some k
  | _ => none

/-- The key it is signed by. -/
def key : PrivateKey :=
  d.key?.getD c.key

/-- What its header starts with. -/
def given : Members :=
  match d.purpose with
  | .lookup => c.lookupHeader
  | _ => []

/-- Its header, for the public key it is signed by, the address of the account and a nonce. -/
def header (signer : PublicKey) (account nonce : Value) : Members :=
  match d.purpose with
  | .lookup => c.lookupHeader ++ [("nonce", nonce), ("url", d.url)]
  | .account => [("nonce", nonce), ("url", d.url), ("alg", .text c.publicKey.algorithm)] ++
      if account.isTrue then [("kid", account)] else []
  | .key _ => [("nonce", nonce), ("url", d.url), ("alg", .text signer.algorithm),
      ("jwk", .object signer.jwk)]

/-- The states in which a client sends such a request: the account is looked up while it is not
known, and nothing is done on its behalf unless it is known or was looked up. -/
def Fits (s : State) : Prop :=
  match d.purpose with
  | .lookup => s.account.isTrue = false
  | .account => s.account.isTrue = true ∨ s.account ∈ s.history.accounts
  | .key _ => True

/-- The signed request `j` in `q` is written for the draft: a nonce was made sure of in the state
`s`, and `q` is sent in the state `w`. -/
structure Written (s w : State) (q : Request) (j : Jws) : Prop where
  fresh : c.freshen s = (.ok (), w)
  content : q.content = some j
  target : ∃ t, Target.read? d.url.display = some t ∧ q.url = t.text
  header : j.header = d.header c j.signer w.account w.nonce
  text : Json.write? (.object j.header) = some j.headerText
  payload : payloadText d.payload = .ok j.payload
  signer : (d.key c).publicKey = .ok j.signer
  signature : (d.key c).sign (Jws.input j.headerText j.payload) = .ok j.signature

variable {c d} {signer : PublicKey} {account nonce n : Value} {ms given : Members} {s t : State}

theorem nonce_of_header : Members.get (d.header c signer account nonce) "nonce" = nonce := by
  unfold header
  cases d.purpose <;> simp [lookupHeader, Members.get, Members.find?]

theorem isLookup_header (j : Jws) (h : j.header = d.header c signer account nonce) :
    j.isLookup = true ↔ d.purpose = .lookup := by
  unfold Jws.isLookup
  rw [h, header]
  cases d.purpose <;> simp [lookupHeader]

/-- **The header of the first attempt, and of its repetition with another nonce.** -/
theorem header_of_protect (hl : d.purpose = .lookup → account.isTrue = false)
    (hg : given = d.given c ∨ given = d.header c signer account n)
    (hk : (d.key c).publicKey = .ok signer)
    (h : c.protect given nonce d.url account d.key? = .ok ms) :
    ms = d.header c signer account nonce := by
  obtain ⟨purpose, url, payload⟩ := d
  cases purpose with
  | lookup =>
    have := hl rfl
    rcases hg with rfl | rfl <;>
      simpa [protect, key?, Draft.given, header, lookupHeader, Members.set, this, eq_comm] using h
  | account =>
    cases ha : account.isTrue <;> rcases hg with rfl | rfl <;>
      simpa [protect, key?, Draft.given, header, Members.set, ha, eq_comm] using h
  | key k =>
    change k.publicKey = .ok signer at hk
    rcases hg with rfl | rfl <;>
      simpa [protect, key?, Draft.given, header, Members.set, hk, eq_comm, bind, Except.bind]
        using h

theorem Fits.of_history {new : History} (h : d.Fits s) (ha : t.account = s.account)
    (hh : t.history = s.history ++ new) : d.Fits t := by
  unfold Fits at h ⊢
  cases hp : d.purpose with
  | lookup =>
    rw [hp] at h
    exact ha ▸ h
  | account =>
    rw [hp] at h
    rw [ha, hh, History.accounts, List.filterMap_append]
    exact h.imp_right fun h => List.mem_append_left _ h
  | key k => trivial

theorem written_of_ready {w : State} {g : Target} {j : Jws} (accept : Option String)
    (h : Ready c d.url d.payload given d.key? s w g j)
    (hl : d.purpose = .lookup → w.account.isTrue = false)
    (hg : given = d.given c ∨ given = d.header c j.signer w.account n) :
    d.Written c s w ⟨g.text, accept, some j⟩ j := by
  obtain ⟨-, -, htext, hsigner, hsig⟩ := sign_eq_ok_iff.mp h.signed
  exact ⟨h.fresh, rfl, ⟨g, h.target, rfl⟩, header_of_protect hl hg hsigner h.header, htext,
    h.payload, hsigner, hsig⟩

end Draft

end Client

end AcmeClient
