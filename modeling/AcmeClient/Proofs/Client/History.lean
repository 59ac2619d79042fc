import Mathlib.Data.List.Basic
import Mathlib.Tactic.SplitIfs
import AcmeClient.Client
import AcmeClient.Proofs.Action

/-!
# Histories of a client

A client that is asked for one thing after the other leaves a history: the requests with their
replies, in order. A signed request spends the nonce in its protected header, a reply may carry the
nonce for a later one.

* `Client.Operation`, `Client.run`: what a client can be asked for, and one thing after the other;
* `History`: exchanges in order, with the nonces that were `received` and `spent`;
* `History.lastCarrier`: the latest exchange whose reply carries a nonce;
* `History.Always`: a property of every exchange with those before it;
* `Client.sample`, `Client.sampleReply`: a client and replies for examples.
-/

namespace AcmeClient

/-! ## Exchanges -/

/-- The nonce in a protected header, null if there is none. -/
def Jws.nonce (j : Jws) : Value :=
  Members.get j.header "nonce"

namespace Exchange

/-- The nonce that a reply carries. -/
def nonce? (e : Exchange) : Option Value :=
  e.reply.headers.find? Client.nonceHeader

/-- The nonce that a signed request spends; null is none. -/
def spent? (e : Exchange) : Option Value :=
  match e.request.content with
  | none => none
  | some j =>
    match j.nonce with
    | .null => none
    | v => some v

theorem spent?_of_unsigned {e : Exchange} (h : e.request.content = none) : e.spent? = none := by
  rw [spent?, h]

theorem spent?_eq_some_iff {e : Exchange} {v : Value} :
    e.spent? = some v ↔ ∃ j, e.request.content = some j ∧ j.nonce = v ∧ v ≠ .null := by
  unfold spent?
  cases hc : e.request.content with
  | none => simp
  | some j => cases hn : j.nonce <;> simp [hn] <;> rintro rfl <;> simp

end Exchange

/-- Requests with their replies, in the order in which they were made. -/
abbrev History := List Exchange

namespace History

/-- The nonces that replies carried. -/
def received (es : History) : List Value :=
  es.filterMap Exchange.nonce?

/-- The nonces that signed requests spent. -/
def spent (es : History) : List Value :=
  es.filterMap Exchange.spent?

/-- The latest exchange whose reply carries a nonce. -/
def lastCarrier (es : History) : Option Exchange :=
  (es.filter fun e => e.nonce?.isSome).getLast?

/-- Every exchange together with those before it has the property `P`. -/
def Always (P : History → Exchange → Prop) (es : History) : Prop :=
  ∀ before e after, es = before ++ e :: after → P before e

variable {P : History → Exchange → Prop} {es : History} {e : Exchange}

@[simp] theorem received_concat : received (es ++ [e]) = es.received ++ e.nonce?.toList := by
  cases h : e.nonce? <;> simp [received, h]

@[simp] theorem spent_concat : spent (es ++ [e]) = es.spent ++ e.spent?.toList := by
  cases h : e.spent? <;> simp [spent, h]

theorem lastCarrier_concat :
    lastCarrier (es ++ [e]) = if e.nonce?.isSome then some e else es.lastCarrier := by
  rw [lastCarrier, List.filter_append, List.filter_singleton]
  split_ifs with h
  · rw [h, cond_true, List.getLast?_concat]
  · rw [Bool.not_eq_true] at h
    rw [h, cond_false, List.append_nil, lastCarrier]

theorem lastCarrier_append (ds : History) :
    lastCarrier (es ++ ds) = ds.lastCarrier.or es.lastCarrier := by
  rw [lastCarrier, List.filter_append, List.getLast?_append]
  rfl

theorem always_nil : Always P [] := fun before _ _ h => by
  cases before <;> cases h

theorem exists_last_signed
    (h : (es.getLast?.bind fun e => e.request.content).isSome = true) :
    ∃ e ∈ es.getLast?, ∃ j, e.request.content = some j ∧ es = es.dropLast ++ [e] := by
  obtain ⟨j, hj⟩ := Option.isSome_iff_exists.mp h
  obtain ⟨e, he, hj⟩ := Option.bind_eq_some_iff.mp hj
  exact ⟨e, he, j, hj, (List.dropLast_append_getLast? e he).symm⟩

/-- **A longer history has a property if the shorter one and the last exchange have it.** -/
theorem always_concat (h : Always P es) (he : P es e) : Always P (es ++ [e]) := by
  intro before d after heq
  obtain ⟨rfl, rfl, rfl⟩ | ⟨rest, rfl, rfl⟩ : (es = before ∧ e = d ∧ after = []) ∨
      ∃ rest, after = rest ++ [e] ∧ es = before ++ d :: rest := by
    rcases List.eq_nil_or_concat after with rfl | ⟨rest, a, rfl⟩
    · obtain ⟨h1, h2⟩ := List.append_inj' heq rfl
      exact .inl ⟨h1, by simpa using h2, rfl⟩
    · rw [List.concat_eq_append, ← List.cons_append, ← List.append_assoc] at heq
      obtain ⟨h1, h2⟩ := List.append_inj' heq rfl
      exact .inr ⟨rest, by simpa [List.concat_eq_append] using h2.symm, h1⟩
  · exact he
  · exact h before d rest rfl

end History

/-! ## Operations -/

namespace Client

/-- The exchanges so far. -/
abbrev State.history (s : State) : History :=
  s.surroundings.exchanges

/-- A client before its first operation. -/
def State.start (account : Value) (clock : Int) (routes : Routes Reply) : State :=
  { toMemory := Memory.start account, surroundings := Surroundings.start clock routes }

/-- What a client can be asked for, and what may happen around it in between. -/
inductive Operation where
  | resourceUrl (name : String)
  | resourceUrl? (name : String)
  | directory
  | login
  | requestCertificate (url : String)
  | requestResource (url : String)
  | sendSigned (url payload : Value) (key : Option PrivateKey)
  /-- Time passes. -/
  | advance (seconds : Int)
  /-- There are new replies to come for an address. -/
  | route (url : String) (replies : List Reply)

/-- An operation, without its result. -/
def Operation.act (c : Client) : Operation → Action State Unit
  | resourceUrl name => (c.resourceUrl name).forget
  | resourceUrl? name => (c.resourceUrl? name).forget
  | directory => c.directory.forget
  | login => c.login
  | requestCertificate url => (c.requestCertificate url).forget
  | requestResource url => (Client.requestResource url).forget
  | sendSigned url payload key => (c.sendSigned url payload key).forget
  | advance seconds =>
    Action.modify fun s => { s with surroundings := s.surroundings.advance seconds }
  | route url replies =>
    Action.modify fun s =>
      { s with surroundings :=
        { s.surroundings with routes := s.surroundings.routes.set url replies } }

/-- One operation after the other, whether they fail or not. -/
def run (c : Client) (ops : List Operation) (s : State) : State :=
  ops.foldl (fun s o => (o.act c s).2) s

/-! ## A small authority -/

/-- A client of an authority at `https://ca`. -/
def sample : Client :=
  ⟨.text "https://ca", .edwards .ed25519 [], .edwards .ed25519 (EdDsa.publicKey .ed25519 [])⟩

/-- A reply without content, with a nonce or without one. -/
def sampleReply (nonce : Option String) : Reply :=
  .response 200 (.table (nonce.toList.map fun n => ("Replay-Nonce", .text n))) [] false

end Client

end AcmeClient
