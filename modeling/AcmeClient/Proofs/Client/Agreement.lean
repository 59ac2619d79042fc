import AcmeClient.Client
import AcmeClient.Proofs.Agreement
import AcmeClient.Proofs.Client.Posting

/-!
# Clients of one authority

Two clients of one authority have account keys of their own, and may know their accounts or not.
They do the same as long as they do not act on behalf of these accounts.

* `Client.Memory.Alike`, `Client.State.Alike`: what such clients have in common;
* `Client.agrees_directory`, `Client.agrees_freshen`: they get directories and nonces alike;
* `Client.agrees_post`, **`Client.agrees_sendSigned`**: and send requests alike that are signed with
  a key that is none of theirs.
-/

namespace AcmeClient

/-- The key signs the content, and the header names it. -/
structure PrivateKey.Signs (k : PrivateKey) (j : Jws) : Prop where
  signer : k.publicKey = .ok j.signer
  named : Members.find? j.header "jwk" = some (.object j.signer.jwk)
  signature : k.sign (Jws.input j.headerText j.payload) = .ok j.signature

namespace Client

/-- The same memory, except for the account. -/
structure Memory.Alike (m m' : Memory) : Prop where
  directory : m.directory = m'.directory
  nonce : m.nonce = m'.nonce
  nonceTime : m.nonceTime = m'.nonceTime

/-- The same memory, except for the account, in surroundings that are the same, except for the
replies of the addresses in `X`. -/
structure State.Alike (X : String → Prop) (s t : State) : Prop where
  memory : s.toMemory.Alike t.toMemory
  surroundings : s.surroundings.Alike X t.surroundings

variable {X : String → Prop} {Q : Jws → Prop} {α : Type}

/-- Two actions do the same in such states. -/
abbrev Agrees (X : String → Prop) (Q : Jws → Prop) (x y : Action State α) : Prop :=
  Action.Agrees X Q (fun s => s.surroundings.exchanges) (State.Alike X) x y

/-! ## Single requests -/

theorem agrees_say (e : Log.Entry) : Agrees X Q (say e) (say e) :=
  Action.agrees_modify (fun _ => rfl) fun _ _ h => ⟨h.memory, h.surroundings.note e⟩

theorem State.Alike.keepNonce {s t : State} (h : s.Alike X t) (hs : Headers) :
    (keepNonce hs s).Alike X (keepNonce hs t) := by
  unfold Client.keepNonce
  cases hs.find? nonceHeader with
  | none => exact h
  | some v => exact ⟨⟨h.memory.directory, rfl, h.surroundings.clock⟩, h.surroundings⟩

theorem agrees_learn (ms : Members) :
    Agrees X Q (Action.modify fun s => { s with directory := some ms })
      (Action.modify fun s => { s with directory := some ms }) :=
  Action.agrees_modify (fun _ => rfl) fun _ _ h =>
    ⟨⟨rfl, h.memory.nonce, h.memory.nonceTime⟩, h.surroundings⟩

theorem agrees_takeNonce : Agrees X Q takeNonce takeNonce where
  carries _ := .refl _
  same _ _ h _ := ⟨congrArg Except.ok h.memory.nonce,
    ⟨h.memory.directory, rfl, h.memory.nonceTime⟩, h.surroundings⟩

theorem needsNonce_congr {s t : State} (h : s.Alike X t) : needsNonce s = needsNonce t := by
  rw [needsNonce, needsNonce, h.memory.nonce, h.memory.nonceTime, h.surroundings.clock]

theorem agrees_exchange (q : Request) (permitted : ∀ j, q.content = some j → Q j) :
    Agrees X Q (exchange q) (exchange q) where
  carries s := ⟨[s.made q], history_exchange q s, fun e he => by
    rw [List.mem_singleton.mp he]
    exact permitted⟩
  same s t h spares := by
    have asked : ¬ X q.url := by
      change Spares X _ (exchange q s).2.history at spares
      rw [history_exchange, State.history, spares_append] at spares
      exact spares (s.made q) List.mem_cons_self
    obtain ⟨reply, surroundings⟩ := h.surroundings.exchange q asked
    have before : State.Alike X { s with surroundings := (s.surroundings.exchange q).2 }
        { t with surroundings := (t.surroundings.exchange q).2 } := ⟨h.memory, surroundings⟩
    refine ⟨congrArg Except.ok reply, ?_⟩
    change State.Alike X (Client.keepNonce (s.surroundings.exchange q).1.headers _)
      (Client.keepNonce (t.surroundings.exchange q).1.headers _)
    rw [← reply]
    exact before.keepNonce _

theorem agrees_send (url : Value) (accept : Option String) {content : Option Jws} (raw : Bool)
    (permitted : ∀ j, content = some j → Q j) :
    Agrees X Q (send url accept content raw) (send url accept content raw) := by
  unfold send
  cases Target.read? url.display with
  | none => exact Action.agrees_fail _
  | some t => exact (agrees_exchange _ permitted).bind fun _ => Action.agrees_ofExcept _

theorem agrees_fetch (url : Value) : Agrees X Q (fetch url) (fetch url) :=
  agrees_send url none false nofun

/-! ## Two clients -/

/-- The directory, fetched if it was not learned. -/
def learned (c : Client) : Option Members → Action State Members
  | some ms => Pure.pure ms
  | none => Action.ofExcept c.directoryUrl >>= fun url => fetch url >>= c.keepDirectory

/-- Get a nonce if there is need for one. -/
def freshenIf (c : Client) (needed : Bool) : Action State Unit :=
  if needed then c.resourceUrl "newNonce" >>= fun url => fetch url >>= fun _ => Pure.pure ()
  else Pure.pure ()

section Clients

variable {c c' : Client} (same : c.ca = c'.ca)
include same

theorem directoryUrl_congr : c.directoryUrl = c'.directoryUrl := by
  unfold directoryUrl
  rw [same]

theorem agrees_refuseDirectory (a : Answer) :
    Agrees X Q (c.refuseDirectory a) (c'.refuseDirectory a) := by
  unfold refuseDirectory
  rw [same]
  exact (agrees_say _).bind fun _ => Action.agrees_ofExcept _

theorem agrees_keepDirectory (a : Answer) :
    Agrees X Q (c.keepDirectory a) (c'.keepDirectory a) := by
  unfold keepDirectory
  cases a.body with
  | object ms =>
    cases a.isRefusal with
    | true => exact agrees_refuseDirectory same a
    | false =>
      exact (agrees_learn ms).bind fun _ => Action.agrees_pure ms
  | _ => exact agrees_refuseDirectory same a

omit same in
theorem directory_eq_learned (c : Client) (s : State) :
    c.directory s = c.learned s.directory s := by
  rw [directory_eq]
  cases s.directory <;> rfl

theorem agrees_directory : Agrees X Q c.directory c'.directory := by
  refine .of_read (fun s => s.directory) (fun t => t.directory) (fun _ _ h => h.memory.directory)
    (fun d => ?_) (directory_eq_learned c) (directory_eq_learned c')
  cases d with
  | some ms => exact Action.agrees_pure ms
  | none =>
    rw [learned, directoryUrl_congr same]
    exact (Action.agrees_ofExcept _).bind fun url => (agrees_fetch url).bind fun a =>
      agrees_keepDirectory same a

theorem agrees_resourceUrl? (name : String) :
    Agrees X Q (c.resourceUrl? name) (c'.resourceUrl? name) :=
  (agrees_directory same).bind fun _ => Action.agrees_pure _

theorem agrees_resourceUrl (name : String) :
    Agrees X Q (c.resourceUrl name) (c'.resourceUrl name) := by
  refine (agrees_resourceUrl? same name).bind fun v => ?_
  cases v with
  | null => exact Action.agrees_fail _
  | _ => exact Action.agrees_pure _

theorem agrees_freshen : Agrees X Q c.freshen c'.freshen := by
  refine .of_read needsNonce needsNonce (fun _ _ => needsNonce_congr) (fun b => ?_)
    (f := c.freshenIf) (g := c'.freshenIf) (fun _ => rfl) fun _ => rfl
  cases b with
  | false => exact Action.agrees_pure ()
  | true =>
    exact (agrees_resourceUrl same _).bind fun url => (agrees_fetch url).bind fun _ =>
      Action.agrees_pure ()

omit same in
theorem signs_of_sign {given header : Members} {nonce url account : Value} {k : PrivateKey}
    {text : String} {j : Jws} (hh : c.protect given nonce url account (some k) = .ok header)
    (hj : sign k header text = .ok j) : k.Signs j := by
  obtain ⟨rfl, -, -, signer, signature⟩ := sign_eq_ok_iff.mp hj
  obtain ⟨p, hp, same⟩ := Action.except_bind_eq_ok_iff.mp hh
  cases hp.symm.trans signer
  refine ⟨signer, ?_, sign_eq_ok_iff.mp hj |>.2.1 ▸ signature⟩
  rw [← Except.ok.inj same, Members.find?_set_self]

/-- A key of its own decides about the header, and it signs. -/
theorem agrees_postOnce (url payload : Value) (given : Members) (raw : Bool) (k : PrivateKey)
    (accept : Option String) :
    Agrees X k.Signs (c.postOnce url payload given raw (some k) accept)
      (c'.postOnce url payload given raw (some k) accept) := by
  refine (Action.agrees_ofExcept _).bind fun text => (agrees_freshen same).bind fun _ =>
    agrees_takeNonce.bind fun nonce => ?_
  have sent : Agrees X k.Signs
      (Action.ofExcept (c.protect given nonce url .null (some k)) >>= fun header =>
        Action.ofExcept (sign k header text) >>= fun jws =>
          send url accept (some jws) raw >>= fun a => Pure.pure (header, a))
      (Action.ofExcept (c'.protect given nonce url .null (some k)) >>= fun header =>
        Action.ofExcept (sign k header text) >>= fun jws =>
          send url accept (some jws) raw >>= fun a => Pure.pure (header, a)) :=
    .ofExcept_bind fun header hh => .ofExcept_bind fun jws hj =>
      (agrees_send url accept raw fun j same =>
        Option.some.inj same ▸ signs_of_sign hh hj).bind fun _ => Action.agrees_pure _
  -- the account is read, and not looked at
  exact .of_read (fun _ => ()) (fun _ => ()) (fun _ _ _ => rfl) (fun _ => sent) (fun _ => rfl)
    fun _ => rfl

theorem agrees_post (url payload : Value) (given : Members) (raw : Bool) (k : PrivateKey)
    (accept : Option String) :
    Agrees X k.Signs (c.post url payload given raw (some k) accept)
      (c'.post url payload given raw (some k) accept) := by
  unfold post
  rw [same]
  refine (agrees_postOnce same ..).bind fun p => (Action.agrees_ofExcept _).bind fun again => ?_
  cases again with
  | false => exact Action.agrees_pure _
  | true =>
    exact (agrees_say _).bind fun _ => (agrees_postOnce same ..).bind fun _ => Action.agrees_pure _

/-- **Requests that are signed with a key of their own do not depend on the account.** -/
theorem agrees_sendSigned (url payload : Value) (k : PrivateKey) :
    Agrees X k.Signs (c.sendSigned url payload (some k)) (c'.sendSigned url payload (some k)) :=
  (agrees_post same ..).bind fun _ => Action.agrees_ofExcept _

end Clients

end Client

end AcmeClient
