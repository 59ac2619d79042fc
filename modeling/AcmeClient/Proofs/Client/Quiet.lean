import Mathlib.Logic.Relation
import AcmeClient.Proofs.Client.History

/-!
# What a client does without signing

The requests that are not signed: documents are fetched, among them the directory, and nonces. They
change the memory in few ways only.

* `Client.State.made`: the exchange that a request leads to, with `Client.history_exchange` and its
  like for the state after it;
* `Client.Quiet`: one change of the state without a signed request;
* `Client.Nonceless`, **`Client.freshen_eq_error_iff`**: why no nonce can be got;
* `Client.quiet_directory`, `Client.quiet_resourceUrl`, `Client.quiet_freshen`: the functions that
  make such changes only.
-/

namespace AcmeClient

namespace Client

open Relation

/-! ## One exchange -/

/-- The exchange that a request leads to. -/
def State.made (s : State) (q : Request) : Exchange :=
  ⟨q, (s.surroundings.exchange q).1, s.surroundings.clock⟩

section Exchange

variable (q : Request) (s : State)

theorem exchange_eq : exchange q s = (.ok (s.made q).reply, (exchange q s).2) :=
  rfl

@[simp] theorem made_request : (s.made q).request = q :=
  rfl

@[simp] theorem made_time : (s.made q).time = s.surroundings.clock :=
  rfl

@[simp] theorem history_exchange : (exchange q s).2.history = s.history ++ [s.made q] := by
  simp only [exchange, keepNonce, Surroundings.exchange, State.made]
  split <;> rfl

@[simp] theorem account_exchange : (exchange q s).2.account = s.account := by
  simp only [exchange, keepNonce]
  split <;> rfl

@[simp] theorem directory_exchange : (exchange q s).2.directory = s.directory := by
  simp only [exchange, keepNonce]
  split <;> rfl

@[simp] theorem clock_exchange : (exchange q s).2.surroundings.clock = s.surroundings.clock := by
  simp only [exchange, keepNonce, Surroundings.exchange]
  split <;> rfl

theorem nonce_exchange_of_some {v : Value} (h : (s.made q).nonce? = some v) :
    (exchange q s).2.nonce = v ∧ (exchange q s).2.nonceTime = s.surroundings.clock := by
  change Headers.find? (s.surroundings.exchange q).1.headers nonceHeader = some v at h
  simp only [exchange, keepNonce, h]
  exact ⟨trivial, rfl⟩

theorem nonce_exchange_of_none (h : (s.made q).nonce? = none) :
    (exchange q s).2.nonce = s.nonce ∧ (exchange q s).2.nonceTime = s.nonceTime := by
  change Headers.find? (s.surroundings.exchange q).1.headers nonceHeader = none at h
  simp only [exchange, keepNonce, h, and_self]

end Exchange

/-! ## Changes without a signed request -/

variable (c : Client)

/-- The exchange brought the directory `ms`. -/
def BringsDirectory (e : Exchange) (ms : Members) : Prop :=
  (∃ url t, c.directoryUrl = .ok url ∧ Target.read? url.display = some t ∧
    e.request = ⟨t.text, none, none⟩) ∧
  ∃ a, Answer.ofReply false e.reply = .ok a ∧ a.isRefusal = false ∧ a.body = .object ms

/-- One change of the state without a signed request. -/
inductive Quiet : State → State → Prop
  | say (s : State) (e : Log.Entry) : Quiet s { s with surroundings := s.surroundings.note e }
  | ask (s : State) (q : Request) (unsigned : q.content = none) : Quiet s (exchange q s).2
  | learn (s : State) (ms : Members) (unknown : s.directory = none)
      (brought : ∃ e ∈ s.history.getLast?, c.BringsDirectory e ms) :
      Quiet s { s with directory := some ms }

/-- Changes of the state without a signed request. -/
abbrev Quiets : State → State → Prop :=
  ReflTransGen (Quiet c)

variable {c}

theorem Quiet.account_eq {s t : State} (h : Quiet c s t) : t.account = s.account := by
  cases h with
  | ask q _ => exact account_exchange q s
  | say | learn => rfl

theorem Quiet.clock_eq {s t : State} (h : Quiet c s t) :
    t.surroundings.clock = s.surroundings.clock := by
  cases h with
  | ask q _ => exact clock_exchange q s
  | say | learn => rfl

theorem Quiet.history_eq {s t : State} (h : Quiet c s t) :
    ∃ new, t.history = s.history ++ new ∧ ∀ e ∈ new, e.request.content = none := by
  cases h with
  | ask q hq => exact ⟨[s.made q], history_exchange q s, by simpa using hq⟩
  | say | learn => exact ⟨[], by simp [State.history, Surroundings.note], by simp⟩

theorem Quiet.nonce_eq {s t : State} (h : Quiet c s t) :
    ∃ new : History, t.history = s.history ++ new ∧
      (new.lastCarrier = none ∧ t.nonce = s.nonce ∧ t.nonceTime = s.nonceTime ∨
        ∃ r, new.lastCarrier = some r ∧ r.nonce? = some t.nonce ∧ r.time = t.nonceTime ∧
          t.nonceTime = s.surroundings.clock) := by
  cases h with
  | ask q _ =>
    refine ⟨[s.made q], history_exchange q s, ?_⟩
    cases hn : (s.made q).nonce? with
    | none =>
      obtain ⟨nonce, time⟩ := nonce_exchange_of_none q s hn
      exact .inl ⟨by simp [History.lastCarrier, hn], nonce, time⟩
    | some v =>
      obtain ⟨nonce, time⟩ := nonce_exchange_of_some q s hn
      refine .inr ⟨s.made q, by simp [History.lastCarrier, hn], by rw [nonce, hn], ?_, time⟩
      rw [time, made_time]
  | say | learn => exact ⟨[], by simp [State.history, Surroundings.note], .inl ⟨rfl, rfl, rfl⟩⟩

theorem Quiets.account_eq {s t : State} (h : Quiets c s t) : t.account = s.account := by
  induction h with
  | refl => rfl
  | tail _ step ih => exact step.account_eq.trans ih

theorem Quiets.clock_eq {s t : State} (h : Quiets c s t) :
    t.surroundings.clock = s.surroundings.clock := by
  induction h with
  | refl => rfl
  | tail _ step ih => exact step.clock_eq.trans ih

/-- **Quiet changes add unsigned requests to the history and nothing else.** -/
theorem Quiets.history_eq {s t : State} (h : Quiets c s t) :
    ∃ new, t.history = s.history ++ new ∧ ∀ e ∈ new, e.request.content = none := by
  induction h with
  | refl => exact ⟨[], by simp, by simp⟩
  | tail _ step ih =>
    obtain ⟨new, hnew, hu⟩ := ih
    obtain ⟨new', hnew', hu'⟩ := step.history_eq
    refine ⟨new ++ new', by rw [hnew', hnew, List.append_assoc], fun e he => ?_⟩
    rcases List.mem_append.mp he with he | he
    · exact hu e he
    · exact hu' e he

/-- **The nonce after quiet changes is the one of the latest reply that carried one.** -/
theorem Quiets.nonce_eq {s t : State} (h : Quiets c s t) :
    ∃ new : History, t.history = s.history ++ new ∧
      (new.lastCarrier = none ∧ t.nonce = s.nonce ∧ t.nonceTime = s.nonceTime ∨
        ∃ r, new.lastCarrier = some r ∧ r.nonce? = some t.nonce ∧ r.time = t.nonceTime ∧
          t.nonceTime = s.surroundings.clock) := by
  induction h with
  | refl => exact ⟨[], by simp, .inl ⟨rfl, rfl, rfl⟩⟩
  | tail quiets step ih =>
    obtain ⟨new, hnew, ih⟩ := ih
    obtain ⟨new', hnew', h⟩ := step.nonce_eq
    refine ⟨new ++ new', by rw [hnew', hnew, List.append_assoc], ?_⟩
    rw [History.lastCarrier_append]
    rcases h with ⟨hc, nonce, time⟩ | ⟨r, hr, nonce, time, clock⟩
    · rw [hc, nonce, time]
      exact ih
    · exact .inr ⟨r, by rw [hr, Option.some_or], nonce, time, clock.trans (Quiets.clock_eq quiets)⟩

/-! ## The functions that make quiet changes -/

section Functions

variable (c) (s : State)

theorem quiet_say (e : Log.Entry) : Quiets c s (say e s).2 :=
  .single (.say s e)

theorem fetch_cases (url : Value) :
    (Target.read? url.display = none ∧ fetch url s = (.error Url.malformed, s)) ∨
    ∃ t, Target.read? url.display = some t ∧ fetch url s =
      (Answer.ofReply false (s.made ⟨t.text, none, none⟩).reply,
        (exchange ⟨t.text, none, none⟩ s).2) := by
  unfold fetch send
  cases Target.read? url.display with
  | none => exact .inl ⟨rfl, rfl⟩
  | some t => exact .inr ⟨t, rfl, Action.bind_of_ok (exchange_eq _ s)⟩

theorem quiet_fetch (url : Value) : Quiets c s (fetch url s).2 := by
  rcases fetch_cases s url with ⟨-, h⟩ | ⟨t, -, h⟩
  · rw [h]
  · rw [h]
    exact .single (.ask s _ rfl)

theorem quiet_refuseDirectory (a : Answer) : Quiets c s (c.refuseDirectory a s).2 :=
  Action.bind_rel (fun h h' => h.trans h') (quiet_say c s _) fun _ _ _ => .refl

theorem quiet_keepDirectory (a : Answer) (unknown : s.directory = none)
    (brought : ∀ ms, a.isRefusal = false → a.body = .object ms →
      ∃ e ∈ s.history.getLast?, c.BringsDirectory e ms) :
    Quiets c s (c.keepDirectory a s).2 := by
  unfold keepDirectory
  cases hb : a.body with
  | object ms =>
    dsimp only
    split_ifs with hr
    · exact quiet_refuseDirectory c s a
    · exact .single (.learn s ms unknown (brought ms (by simpa using hr) hb))
  | _ => exact quiet_refuseDirectory c s a

theorem directory_eq : c.directory s =
    match s.directory with
    | some ms => (.ok ms, s)
    | none => (Action.ofExcept c.directoryUrl >>= fun url => fetch url >>= c.keepDirectory) s := by
  change (match s.directory with
    | some ms => Pure.pure ms
    | none => Action.ofExcept c.directoryUrl >>= fun url => fetch url >>= c.keepDirectory :
      Action _ _) s = _
  cases s.directory <;> rfl

theorem quiet_directory : Quiets c s (c.directory s).2 := by
  rw [directory_eq]
  cases hd : s.directory with
  | some ms => exact .refl
  | none =>
    refine Action.bind_rel (fun h h' => h.trans h') .refl fun url t ht => ?_
    obtain ⟨hu, rfl⟩ : c.directoryUrl = .ok url ∧ s = t := Prod.mk.inj ht
    refine Action.bind_rel (fun h h' => h.trans h') (quiet_fetch c s url) fun a t ht => ?_
    rcases fetch_cases s url with ⟨-, h⟩ | ⟨g, hg, h⟩
    · rw [h] at ht
      cases ht
    · obtain ⟨ha, rfl⟩ := Prod.mk.inj (h.symm.trans ht)
      refine quiet_keepDirectory c _ a (by rw [directory_exchange, hd]) fun ms hr hb => ?_
      rw [history_exchange]
      exact ⟨_, by simp, ⟨url, g, hu, hg, rfl⟩, a, ha, hr, hb⟩

theorem quiet_resourceUrl? (name : String) : Quiets c s (c.resourceUrl? name s).2 :=
  Action.bind_rel (fun h h' => h.trans h') (quiet_directory c s) fun _ _ _ => .refl

theorem quiet_resourceUrl (name : String) : Quiets c s (c.resourceUrl name s).2 := by
  refine Action.bind_rel (fun h h' => h.trans h') (quiet_resourceUrl? c s name) fun v t _ => ?_
  cases v <;> exact .refl

theorem freshen_eq : c.freshen s =
    if needsNonce s then
      (c.resourceUrl "newNonce" >>= fun url => fetch url >>= fun _ => Pure.pure ()) s
    else (.ok (), s) := by
  change (if needsNonce s then
    (c.resourceUrl "newNonce" >>= fun url => fetch url >>= fun _ => Pure.pure ())
    else Pure.pure () : Action _ _) s = _
  split_ifs <;> rfl

/-- Why no nonce can be got in a state: the directory cannot be fetched, it has no address for
nonces, or the request to that address fails. -/
inductive Nonceless : Error → Prop
  | directory {e : Error} {w : State} (failed : c.directory s = (.error e, w)) : Nonceless e
  | address {ms : Members} {w : State} (known : c.directory s = (.ok ms, w))
      (missing : ms.get "newNonce" = .null) : Nonceless (.unsupported "newNonce")
  | request {e : Error} {ms : Members} {v w : State} (known : c.directory s = (.ok ms, v))
      (offered : ms.get "newNonce" ≠ .null)
      (failed : fetch (ms.get "newNonce") v = (.error e, w)) : Nonceless e

variable {c s} in
theorem resourceUrl_of_error {name : String} {e : Error} {w : State}
    (failed : c.directory s = (.error e, w)) : c.resourceUrl name s = (.error e, w) :=
  Action.bind_of_error (Action.bind_of_error failed)

variable {c s} in
theorem resourceUrl_of_missing {name : String} {ms : Members} {w : State}
    (known : c.directory s = (.ok ms, w)) (missing : ms.get name = .null) :
    c.resourceUrl name s = (.error (.unsupported name), w) := by
  have found : c.resourceUrl? name s = (.ok (ms.get name), w) := Action.bind_of_ok known
  unfold resourceUrl
  rw [Action.bind_of_ok found, missing]
  rfl

variable {c s} in
theorem resourceUrl_of_offered {name : String} {ms : Members} {w : State}
    (known : c.directory s = (.ok ms, w)) (offered : ms.get name ≠ .null) :
    c.resourceUrl name s = (.ok (ms.get name), w) := by
  have found : c.resourceUrl? name s = (.ok (ms.get name), w) := Action.bind_of_ok known
  unfold resourceUrl
  rw [Action.bind_of_ok found]
  cases hv : ms.get name with
  | null => exact absurd hv offered
  | _ => rfl

/-- **Making sure of a nonce fails exactly where one is needed and none can be got.** -/
theorem freshen_eq_error_iff {e : Error} :
    (c.freshen s).1 = .error e ↔ needsNonce s = true ∧ Nonceless c s e := by
  rw [freshen_eq]
  split_ifs with needed
  · rw [and_iff_right needed]
    constructor
    · intro h
      rcases hd : c.directory s with ⟨x | ms, w⟩
      · rw [Action.bind_of_error (resourceUrl_of_error hd)] at h
        cases h
        exact .directory hd
      · by_cases missing : ms.get "newNonce" = .null
        · rw [Action.bind_of_error (resourceUrl_of_missing hd missing)] at h
          cases h
          exact .address hd missing
        · rw [Action.bind_of_ok (resourceUrl_of_offered hd missing)] at h
          rcases hf : fetch (ms.get "newNonce") w with ⟨x | a, u⟩
          · rw [Action.bind_of_error hf] at h
            cases h
            exact .request hd missing hf
          · rw [Action.bind_of_ok hf] at h
            cases h
    · rintro (failed | ⟨known, missing⟩ | ⟨known, offered, failed⟩)
      · rw [Action.bind_of_error (resourceUrl_of_error failed)]
      · rw [Action.bind_of_error (resourceUrl_of_missing known missing)]
      · rw [Action.bind_of_ok (resourceUrl_of_offered known offered), Action.bind_of_error failed]
  · simp [needed]

theorem quiet_freshen : Quiets c s (c.freshen s).2 := by
  rw [freshen_eq]
  split_ifs
  · refine Action.bind_rel (fun h h' => h.trans h') (quiet_resourceUrl c s _) fun url t _ => ?_
    exact Action.bind_rel (fun h h' => h.trans h') (quiet_fetch c t url) fun _ _ _ => .refl
  · exact .refl

variable {c s} in
theorem quiets_of_freshen {r : Except Error Unit} {w : State} (h : c.freshen s = (r, w)) :
    Quiets c s w := by
  have quiets := quiet_freshen c s
  rwa [h] at quiets

end Functions

end Client

end AcmeClient
