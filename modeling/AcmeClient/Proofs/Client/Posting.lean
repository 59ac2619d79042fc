import AcmeClient.Proofs.Members
import AcmeClient.Proofs.Client.Quiet

/-!
# Sending a signed request

What the functions that sign and send do, said once for everything that is derived from them.

* `Client.Ready`: what a signed request consists of when it is sent;
* `Client.Unsent`: why a signed request is not sent;
* `Client.postOnce_cases`: nothing is sent for one of these reasons, or one ready request is;
* `Client.post_eq`: a request and its repetition;
* `Client.protect_again`: the header of the repetition is the first one with another nonce.
-/

namespace AcmeClient

namespace Client

/-- The state in which a request is sent: the nonce is taken. -/
def State.spending (w : State) : State :=
  { w with nonce := .null }

@[simp] theorem history_spending (w : State) : w.spending.history = w.history :=
  rfl

@[simp] theorem account_spending (w : State) : w.spending.account = w.account :=
  rfl

theorem takeNonce_eq (w : State) : takeNonce w = (.ok w.nonce, w.spending) :=
  rfl

theorem signedText_eq_ok_iff {v : Value} {s : String} :
    signedText v = .ok s ↔ Json.write? v = some s := by
  unfold signedText
  cases Json.write? v <;> simp

theorem sign_eq_ok_iff {k : PrivateKey} {header : Members} {payload : String} {j : Jws} :
    sign k header payload = .ok j ↔
      j.header = header ∧ j.payload = payload ∧ Json.write? (.object header) = some j.headerText ∧
        k.publicKey = .ok j.signer ∧ k.sign (Jws.input j.headerText payload) = .ok j.signature := by
  rw [← signedText_eq_ok_iff]
  obtain ⟨h, text, p, sig, signer⟩ := j
  unfold sign
  cases hk : k.publicKey with
  | error e => simp [bind, Except.bind]
  | ok q =>
    cases ht : signedText (.object header) with
    | error e => simp [bind, Except.bind]
    | ok t =>
      cases hs : k.sign (Jws.input t payload) with
      | error e =>
        simp only [bind, Except.bind, hs, reduceCtorEq, Except.ok.injEq, false_iff, not_and]
        rintro rfl rfl rfl rfl h
        rw [hs] at h
        cases h
      | ok b =>
        simp only [bind, Except.bind, hs, Except.ok.injEq, Jws.mk.injEq]
        constructor
        · rintro ⟨rfl, rfl, rfl, rfl, rfl⟩
          exact ⟨rfl, rfl, rfl, rfl, hs⟩
        · rintro ⟨rfl, rfl, rfl, rfl, h⟩
          exact ⟨rfl, rfl, rfl, Except.ok.inj (hs.symm.trans h), rfl⟩

section Post

variable (c : Client) (url payload : Value) (given : Members) (raw : Bool)
  (key : Option PrivateKey) (accept : Option String) (s : State)

/-- A signed request is ready in the state `w`, after a nonce was made sure of in the state `s`. -/
structure Ready (w : State) (t : Target) (j : Jws) : Prop where
  fresh : c.freshen s = (.ok (), w)
  target : Target.read? url.display = some t
  payload : payloadText payload = .ok j.payload
  header : c.protect given w.nonce url w.account key = .ok j.header
  signed : sign (key.getD c.key) j.header j.payload = .ok j

/-- Why a signed request is not sent. -/
inductive Unsent : Error → Prop
  | payload {e : Error} (h : payloadText payload = .error e) : Unsent e
  | nonce {e : Error} {w : State} (h : c.freshen s = (.error e, w)) : Unsent e
  | header {e : Error} {w : State} (fresh : c.freshen s = (.ok (), w))
      (h : c.protect given w.nonce url w.account key = .error e) : Unsent e
  | signature {e : Error} {w : State} {ms : Members} {text : String}
      (fresh : c.freshen s = (.ok (), w))
      (header : c.protect given w.nonce url w.account key = .ok ms)
      (payload : payloadText payload = .ok text)
      (h : sign (key.getD c.key) ms text = .error e) : Unsent e
  | target (h : Target.read? url.display = none) : Unsent Url.malformed

theorem postOnce_of_ready {w : State} {t : Target} {j : Jws}
    (h : Ready c url payload given key s w t j) :
    c.postOnce url payload given raw key accept s =
      ((Answer.ofReply raw (w.spending.made ⟨t.text, accept, some j⟩).reply).map
          fun a => (j.header, a),
        (exchange ⟨t.text, accept, some j⟩ w.spending).2) := by
  unfold postOnce
  rw [Action.ofExcept_bind_of_ok h.payload, Action.bind_of_ok h.fresh,
    Action.bind_of_ok (takeNonce_eq w), Action.get_bind, account_spending,
    Action.ofExcept_bind_of_ok h.header, Action.ofExcept_bind_of_ok h.signed]
  unfold send
  rw [h.target]
  rw [Action.bind_pure]
  dsimp only
  rw [Action.bind_ofExcept]
  rfl

/-- The state after nothing was sent: a nonce was made sure of unless the payload has no text, and
it may be taken all the same. -/
inductive Idle (s : State) : State → Prop
  | payload {e : Error} (h : payloadText payload = .error e) : Idle s s
  | fresh : Idle s (c.freshen s).2
  | spent : Idle s (c.freshen s).2.spending

/-- **Nothing is sent for one of a few reasons, or one ready request is sent.** -/
theorem postOnce_cases :
    (∃ e u, c.postOnce url payload given raw key accept s = (.error e, u) ∧ Idle c payload s u ∧
      Unsent c url payload given key s e) ∨
    ∃ w t j, Ready c url payload given key s w t j := by
  cases hp : payloadText payload with
  | error e =>
    exact .inl ⟨e, s, Action.ofExcept_bind_of_error hp, .payload hp, .payload hp⟩
  | ok text =>
  unfold postOnce
  rw [Action.ofExcept_bind_of_ok hp]
  have sure : Idle c payload s (c.freshen s).2 := .fresh
  have taken : Idle c payload s (c.freshen s).2.spending := .spent
  rcases hf : c.freshen s with ⟨e | ⟨⟩, w⟩
  all_goals rw [hf] at sure taken
  · exact .inl ⟨e, w, Action.bind_of_error hf, sure, .nonce hf⟩
  rw [Action.bind_of_ok hf, Action.bind_of_ok (takeNonce_eq w), Action.get_bind, account_spending]
  cases hh : c.protect given w.nonce url w.account key with
  | error e => exact .inl ⟨e, _, Action.ofExcept_bind_of_error rfl, taken, .header hf hh⟩
  | ok ms =>
  rw [Action.ofExcept_bind_of_ok rfl]
  cases hj : sign (key.getD c.key) ms text with
  | error e =>
    exact .inl ⟨e, _, Action.ofExcept_bind_of_error rfl, taken, .signature hf hh hp hj⟩
  | ok j =>
  rw [Action.ofExcept_bind_of_ok rfl]
  obtain ⟨rfl, rfl, -⟩ := sign_eq_ok_iff.mp hj
  cases ht : Target.read? url.display with
  | none =>
    refine .inl ⟨Url.malformed, w.spending, Action.bind_of_error ?_, taken, .target ht⟩
    unfold send
    rw [ht]
    rfl
  | some t => exact .inr ⟨w, t, j, hf, ht, hp, hh, hj⟩

variable {c payload s} in
theorem Idle.history_eq {u : State} (h : Idle c payload s u) :
    ∃ new, u.history = s.history ++ new ∧ ∀ e ∈ new, e.request.content = none := by
  cases h with
  | payload => exact ⟨[], (List.append_nil _).symm, nofun⟩
  | fresh => exact (quiet_freshen c s).history_eq
  | spent => exact (quiet_freshen c s).history_eq

/-- The state after the user was told that a nonce was rejected. -/
def State.reported (t : State) : State :=
  (say (Log.warning ("Nonce rejected by " ++ c.ca.display ++ ", retrying request")) t).2

theorem report_eq (t : State) :
    say (Log.warning ("Nonce rejected by " ++ c.ca.display ++ ", retrying request")) t =
      (.ok (), t.reported c) :=
  rfl

theorem quiet_reported (t : State) : Quiets c t (t.reported c) :=
  quiet_say c t _

@[simp] theorem history_reported (t : State) : (t.reported c).history = t.history :=
  rfl

@[simp] theorem account_reported (t : State) : (t.reported c).account = t.account :=
  rfl

/-- **A request and its repetition.** -/
theorem post_eq : c.post url payload given raw key accept s =
    match c.postOnce url payload given raw key accept s with
    | (.error e, t) => (.error e, t)
    | (.ok (header, a), t) =>
      match rejectsNonce a with
      | .error e => (.error e, t)
      | .ok false => (.ok a, t)
      | .ok true =>
        ((c.postOnce url payload header raw key accept (t.reported c)).1.map Prod.snd,
          (c.postOnce url payload header raw key accept (t.reported c)).2) := by
  unfold post
  rcases h : c.postOnce url payload given raw key accept s with ⟨e | ⟨header, a⟩, t⟩
  · exact Action.bind_of_error h
  rw [Action.bind_of_ok h]
  dsimp only
  rcases rejectsNonce a with e | _ | _
  · rfl
  · rfl
  · rw [Action.ofExcept_bind_of_ok rfl, if_pos rfl, Action.bind_of_ok (report_eq c t)]
    dsimp only
    rcases h' : c.postOnce url payload header raw key accept (t.reported c) with
      ⟨e | ⟨header', b⟩, u⟩
    · exact Action.bind_of_error h'
    · exact Action.bind_of_ok h'

variable {c url given key} {n m account : Value} {header : Members}

/-- **The header of a repetition is the first one with another nonce in its place.** -/
theorem protect_again (h : c.protect given n url account key = .ok header) :
    c.protect header m url account key = .ok (Members.set header "nonce" m) := by
  unfold protect at h ⊢
  cases key with
  | none =>
    dsimp only at h ⊢
    obtain rfl := Except.ok.inj h
    congr 1
    split_ifs with ha
    · rw [Members.set_of_find? (k := "url"), Members.set_of_find? (k := "alg"),
        Members.set_of_find? (k := "kid")] <;> simp
    · rw [Members.set_of_find? (k := "url"), Members.set_of_find? (k := "alg")] <;> simp
  | some k =>
    dsimp only at h ⊢
    cases hk : k.publicKey with
    | error e =>
      rw [hk] at h
      cases h
    | ok p =>
      rw [hk] at h
      obtain rfl := Except.ok.inj h
      refine congrArg Except.ok ?_
      rw [Members.set_of_find? (k := "url"), Members.set_of_find? (k := "alg"),
        Members.set_of_find? (k := "jwk")] <;> simp

end Post

end Client

end AcmeClient
