import AcmeClient.Proofs.Client.Draft

/-!
# The steps of a client

Whatever a client is asked for, it does in steps of a few kinds. An invariant is checked for every
kind of step and then holds of every run.

* `Client.Step`, `Client.Steps`: the steps, with the signed requests that are permitted;
* **`Client.Steps.always`**: an invariant decides what all requests of a sequence of steps have;
* `Client.Operation.Permits`: the signed requests that an operation makes;
* **`Client.steps_act`**: an operation is a sequence of steps with the signed requests it permits;
* **`Client.steps_run`**: so is a run.
-/

namespace AcmeClient

theorem Problem.exists_reject {α : Type} (message : String) (code : Value) (body : Value) :
    ∃ e, (Problem.reject message code body : Except Error α) = .error e := by
  unfold Problem.reject
  cases Problem.rejection message code body <;> exact ⟨_, rfl⟩

namespace Client

open Relation

/-- A step of a client that makes permitted signed requests only. -/
inductive Step (c : Client) (P : Draft → Prop) : State → State → Prop
  | quiet {s t : State} (h : Quiet c s t) : Step c P s t
  /-- The nonce is taken for a request that is never sent. -/
  | waste (s : State) : Step c P s s.spending
  /-- Time passes, or there are new replies to come. -/
  | surround (s : State) (w : Surroundings) (h : w.exchanges = s.surroundings.exchanges) :
      Step c P s { s with surroundings := w }
  /-- The account that a look-up brought is kept. -/
  | settle (s : State) (v : Value) (unknown : s.account.isTrue = false)
      (found : s.history.accounts.getLast? = some v) : Step c P s { s with account := v }
  | post {s w : State} {q : Request} {j : Jws} (d : Draft) (allowed : P d) (fits : d.Fits s)
      (written : d.Written c s w q j) : Step c P s (exchange q w.spending).2

/-- Steps one after the other. -/
abbrev Steps (c : Client) (P : Draft → Prop) : State → State → Prop :=
  ReflTransGen (Step c P)

variable {c : Client} {P P' : Draft → Prop} {s t : State}

theorem Quiets.steps (h : Quiets c s t) : Steps c P s t :=
  ReflTransGen.mono (fun _ _ => .quiet) _ _ h

theorem Idle.steps {payload : Value} (h : Idle c payload s t) : Steps c P s t := by
  cases h with
  | payload => exact .refl
  | fresh => exact (quiet_freshen c s).steps
  | spent => exact (quiet_freshen c s).steps.tail (.waste _)

theorem Steps.mono (h : Steps c P s t) (hp : ∀ d, P d → P' d) :
    Steps c P' s t := by
  refine ReflTransGen.mono (fun _ _ step => ?_) _ _ h
  cases step with
  | quiet h => exact .quiet h
  | waste => exact .waste _
  | surround w h => exact .surround _ w h
  | settle v hu hf => exact .settle _ v hu hf
  | post d hd hf hw => exact .post d (hp d hd) hf hw

theorem Step.history_eq (h : Step c P s t) : ∃ new, t.history = s.history ++ new := by
  cases h with
  | quiet h =>
    obtain ⟨new, h, -⟩ := h.history_eq
    exact ⟨new, h⟩
  | waste => exact ⟨[], (List.append_nil _).symm⟩
  | surround w h => exact ⟨[], by rw [List.append_nil]; exact h⟩
  | settle v _ _ => exact ⟨[], (List.append_nil _).symm⟩
  | @post w q j d _ _ hw =>
    obtain ⟨new, h, -⟩ := (quiets_of_freshen hw.fresh).history_eq
    refine ⟨new ++ [w.spending.made q], ?_⟩
    rw [history_exchange, history_spending, h, List.append_assoc]

theorem Steps.history_eq (h : Steps c P s t) : ∃ new, t.history = s.history ++ new := by
  induction h with
  | refl => exact ⟨[], by simp⟩
  | tail _ step ih =>
    obtain ⟨new, hnew⟩ := ih
    obtain ⟨new', hnew'⟩ := step.history_eq
    exact ⟨new ++ new', by rw [hnew', hnew, List.append_assoc]⟩

/-- **What unsigned requests have, and what every signed request has that is sent while an invariant
holds, all requests have.** -/
theorem Steps.always {I : State → Prop} {Q : History → Exchange → Prop}
    (preserved : ∀ {s t}, Step c P s t → I s → I t)
    (unsigned : ∀ es e, e.request.content = none → Q es e)
    (signed : ∀ {s w q j} d, I s → P d → d.Fits s → d.Written c s w q j →
      Q w.history (w.spending.made q))
    (h : Steps c P s t) (hi : I s) (hs : s.history.Always Q) : I t ∧ t.history.Always Q := by
  have quiet : ∀ {s t}, Quiet c s t → s.history.Always Q → t.history.Always Q := by
    intro s t h hs
    cases h with
    | ask q hq =>
      rw [history_exchange]
      exact History.always_concat hs (unsigned _ _ hq)
    | say | learn => exact hs
  induction h with
  | refl => exact ⟨hi, hs⟩
  | @tail t u _ step ih =>
    obtain ⟨ht, hq⟩ := ih
    refine ⟨preserved step ht, ?_⟩
    cases step with
    | quiet h => exact quiet h hq
    | waste => exact hq
    | surround w h =>
      change History.Always Q w.exchanges
      rw [h]
      exact hq
    | settle => exact hq
    | @post w q j d hd hf hw =>
      -- the nonce is made sure of by unsigned requests
      have fresh : ∀ {v}, Quiets c t v → v.history.Always Q := fun h => by
        induction h with
        | refl => exact hq
        | tail _ step ih => exact quiet step ih
      rw [history_exchange, history_spending]
      exact History.always_concat (fresh (quiets_of_freshen hw.fresh)) (signed d ht hd hf hw)

/-! ## Signed requests -/

section Post

variable (c : Client) {d : Draft} (raw : Bool) (accept : Option String)

/-- The last exchange was a signed request for the draft, and its reply means `a`. -/
def Answered (d : Draft) (raw : Bool) (a : Answer) (t : State) : Prop :=
  ∃ e ∈ t.history.getLast?, ∃ j account nonce, e.request.content = some j ∧
    j.header = d.header c j.signer account nonce ∧ Answer.ofReply raw e.reply = .ok a

theorem steps_postOnce {given : Members} (s : State) (hd : P d) (hf : d.Fits s)
    (hg : given = d.given c ∨
      ∃ p n, (d.key c).publicKey = .ok p ∧ given = d.header c p s.account n) :
    Steps c P s (c.postOnce d.url d.payload given raw d.key? accept s).2 ∧
    ∀ ms a t, c.postOnce d.url d.payload given raw d.key? accept s = (.ok (ms, a), t) →
      t.account = s.account ∧ Answered c d raw a t ∧
      ∃ p n, (d.key c).publicKey = .ok p ∧ ms = d.header c p s.account n := by
  rcases postOnce_cases c d.url d.payload given raw d.key? accept s with
    ⟨e, u, he, hu, -⟩ | ⟨w, g, j, hr⟩
  · rw [he]
    exact ⟨hu.steps, fun _ _ _ h => by cases h⟩
  have account : w.account = s.account := (quiets_of_freshen hr.fresh).account_eq
  have signer : (d.key c).publicKey = .ok j.signer := (sign_eq_ok_iff.mp hr.signed).2.2.2.1
  have written : d.Written c s w ⟨g.text, accept, some j⟩ j := by
    have hl : d.purpose = .lookup → w.account.isTrue = false := fun hl => by
      rw [account]
      simpa only [Draft.Fits, hl] using hf
    rcases hg with hg | ⟨p, n, hp, hg⟩
    · exact Draft.written_of_ready accept hr hl (n := .null) (.inl hg)
    · obtain rfl : p = j.signer := Except.ok.inj (hp.symm.trans signer)
      exact Draft.written_of_ready accept hr hl (.inr (account ▸ hg))
  rw [postOnce_of_ready c d.url d.payload given raw d.key? accept s hr]
  refine ⟨.single (.post d hd hf written), fun ms a t h => ?_⟩
  obtain ⟨ha, rfl⟩ := Prod.mk.inj h
  obtain ⟨a', ha', heq⟩ : ∃ a', Answer.ofReply raw _ = .ok a' ∧ (j.header, a') = (ms, a) :=
    Action.map_eq_ok_iff.mp ha
  obtain ⟨rfl, rfl⟩ := Prod.mk.inj heq
  refine ⟨by rw [account_exchange, account_spending, account], ?_, j.signer, w.nonce, signer,
    account ▸ written.header⟩
  refine ⟨w.spending.made ⟨g.text, accept, some j⟩, ?_, j, w.account, w.nonce, rfl,
    written.header, ha'⟩
  rw [history_exchange, List.getLast?_concat]
  rfl

/-- **A request with its repetition consists of permitted steps.** -/
theorem steps_post (s : State) (hd : P d) (hf : d.Fits s) :
    Steps c P s (c.post d.url d.payload (d.given c) raw d.key? accept s).2 ∧
    ∀ a t, c.post d.url d.payload (d.given c) raw d.key? accept s = (.ok a, t) →
      t.account = s.account ∧ Answered c d raw a t := by
  obtain ⟨first, ok⟩ := steps_postOnce c raw accept s hd hf (.inl rfl)
  rw [post_eq]
  rcases h : c.postOnce d.url d.payload (d.given c) raw d.key? accept s with ⟨e | ⟨ms, a⟩, t⟩
  · rw [h] at first
    exact ⟨first, fun _ _ h => by cases h⟩
  rw [h] at first
  obtain ⟨account, answered, header⟩ := ok ms a t h
  dsimp only
  rcases rejectsNonce a with e | _ | _
  · exact ⟨first, fun _ _ h => by cases h⟩
  · refine ⟨first, fun _ _ h => ?_⟩
    cases h
    exact ⟨account, answered⟩
  -- the nonce was rejected, so the request is repeated in the state that this has led to
  have fits : d.Fits (t.reported c) := by
    obtain ⟨new, hnew⟩ := first.history_eq
    exact hf.of_history account hnew
  obtain ⟨second, ok'⟩ := steps_postOnce c raw accept (t.reported c) hd fits (.inr (by
    rw [account_reported, account]
    exact header))
  refine ⟨first.trans ((quiet_reported c t).steps.trans second), fun b u hb => ?_⟩
  dsimp only at hb
  obtain ⟨hmap, rfl⟩ := Prod.mk.inj hb
  obtain ⟨⟨ms', b'⟩, hp, rfl⟩ := Action.map_eq_ok_iff.mp hmap
  obtain ⟨account', answered', -⟩ := ok' ms' b' _ (Prod.ext hp rfl)
  exact ⟨account'.trans account, answered'⟩

end Post

/-! ## Operations -/

section Operations

variable (c) (s : State)

theorem login_eq : c.login s =
    if s.account.isTrue then (.ok (), s)
    else (c.resourceUrl "newAccount" >>= fun url =>
      c.post url lookupPayload c.lookupHeader false none none >>= c.keepAccount) s := by
  change (if s.account.isTrue then Pure.pure () else c.resourceUrl "newAccount" >>= fun url =>
    c.post url lookupPayload c.lookupHeader false none none >>= c.keepAccount : Action _ _) s = _
  split_ifs <;> rfl

theorem keepAccount_cases (a : Answer) :
    (∃ v, a.isRefusal = false ∧ a.headers.find? "Location" = some v ∧
      ∃ e, c.keepAccount a s = (.ok (), (say e { s with account := v }).2)) ∨
    ∃ e, c.keepAccount a s = (.error e, s) := by
  obtain ⟨e, he⟩ :=
    Problem.exists_reject (α := Unit) "Error looking up account" (.int a.code) a.body
  unfold keepAccount
  cases a.isRefusal with
  | true => exact .inr ⟨e, congrArg (·, s) he⟩
  | false =>
    cases a.headers.find? "Location" with
    | none => exact .inr ⟨e, congrArg (·, s) he⟩
    | some v => exact .inl ⟨v, rfl, rfl, _, rfl⟩

theorem Answered.account? {c : Client} {d : Draft} {a : Answer} {t : State} {v : Value}
    (h : Answered c d false a t) (hl : d.purpose = .lookup) (hr : a.isRefusal = false)
    (hv : a.headers.find? "Location" = some v) :
    ∃ e ∈ t.history.getLast?, e.account? = some v := by
  obtain ⟨e, he, j, account, nonce, hc, hj, ha⟩ := h
  refine ⟨e, he, ?_⟩
  rw [Exchange.account?, hc]
  dsimp only
  rw [if_pos ((Draft.isLookup_header j hj).mpr hl), ha]
  simpa [hr] using hv

theorem Answered.accounts {c : Client} {d : Draft} {a : Answer} {t : State} {v : Value}
    (h : Answered c d false a t) (hl : d.purpose = .lookup) (hr : a.isRefusal = false)
    (hv : a.headers.find? "Location" = some v) : t.history.accounts.getLast? = some v := by
  obtain ⟨e, he, found⟩ := h.account? hl hr hv
  obtain ⟨es, hes⟩ := List.getLast?_eq_some_iff.mp he
  rw [hes, History.accounts, List.filterMap_append]
  simp [found]

/-- A look-up. -/
def IsLookup (d : Draft) : Prop :=
  ∃ url, d = ⟨.lookup, url, lookupPayload⟩

/-- **Logging in consists of permitted steps, and where it succeeds the account is known.** -/
theorem steps_login (hd : ∀ d, IsLookup d → P d) :
    Steps c P s (c.login s).2 ∧
    ∀ t, c.login s = (.ok (), t) → t.account.isTrue = true ∨ t.account ∈ t.history.accounts := by
  rw [login_eq]
  split_ifs with ha
  · refine ⟨.refl, fun t h => ?_⟩
    obtain rfl : s = t := congrArg Prod.snd h
    exact .inl ha
  rw [Bool.not_eq_true] at ha
  rcases hu : c.resourceUrl "newAccount" s with ⟨e | url, u⟩
  all_goals
    have quiet := quiet_resourceUrl c s "newAccount"
    rw [hu] at quiet
  · rw [Action.bind_of_error hu]
    exact ⟨quiet.steps, fun _ h => by cases h⟩
  rw [Action.bind_of_ok hu]
  have unknown : u.account.isTrue = false := by rw [quiet.account_eq, ha]
  have fits : Draft.Fits ⟨.lookup, url, lookupPayload⟩ u := unknown
  obtain ⟨steps, ok⟩ := steps_post c (d := ⟨.lookup, url, lookupPayload⟩) false none u
    (hd _ ⟨url, rfl⟩) fits
  change Steps c P u (c.post url lookupPayload c.lookupHeader false none none u).2 at steps
  change ∀ a t, c.post url lookupPayload c.lookupHeader false none none u = (.ok a, t) → _ at ok
  rcases hp : c.post url lookupPayload c.lookupHeader false none none u with ⟨e | a, t⟩
  all_goals rw [hp] at steps
  · rw [Action.bind_of_error hp]
    exact ⟨quiet.steps.trans steps, fun _ h => by cases h⟩
  rw [Action.bind_of_ok hp]
  obtain ⟨account, answered⟩ := ok a t hp
  rcases keepAccount_cases c t a with ⟨v, hr, hv, e, hk⟩ | ⟨e, hk⟩
  · have found := answered.accounts rfl hr hv
    rw [hk]
    have kept : Steps c P t (say e { t with account := v }).2 :=
      .tail (.single (.settle t v (by rw [account, unknown]) found)) (.quiet (.say _ e))
    refine ⟨quiet.steps.trans (steps.trans kept), fun t' h => ?_⟩
    obtain rfl := congrArg Prod.snd h
    exact .inr (List.mem_of_getLast? found)
  · rw [hk]
    exact ⟨quiet.steps.trans steps, fun _ h => by cases h⟩

/-- The signed requests that an operation makes. -/
def Operation.Permits : Operation → Draft → Prop
  | login, d => IsLookup d
  | requestCertificate url, d => IsLookup d ∨ d = ⟨.account, .text url, .null⟩
  | sendSigned url payload none, d => IsLookup d ∨ d = ⟨.account, url, payload⟩
  | sendSigned url payload (some k), d => d = ⟨.key k, url, payload⟩
  | _, _ => False

theorem steps_login_post {α : Type} (d : Draft) (hp : d.purpose = .account) (raw : Bool)
    (accept : Option String) (f : Answer → Except Error α) :
    Steps c (fun d' => IsLookup d' ∨ d' = d) s
      ((c.login >>= fun _ => c.post d.url d.payload [] raw none accept >>= fun a =>
        Action.ofExcept (f a)) s).2 := by
  refine Action.bind_rel (fun h h' => h.trans h') (steps_login c s fun _ => .inl).1 fun _ t ht => ?_
  refine Action.bind_rel (fun h h' => h.trans h') ?_ fun _ _ _ => .refl
  have fits : d.Fits t := by
    simpa only [Draft.Fits, hp] using (steps_login c s (P := IsLookup) fun _ h => h).2 t ht
  have given : d.given c = [] := by simp only [Draft.given, hp]
  have key : d.key? = none := by simp only [Draft.key?, hp]
  have := (steps_post c (P := fun d' => IsLookup d' ∨ d' = d) raw accept t (.inr rfl) fits).1
  rwa [given, key] at this

theorem sendSigned_none (url payload : Value) : c.sendSigned url payload none =
    (c.login >>= fun _ => c.post url payload [] false none none >>= fun a =>
      Action.ofExcept (accepted ("Request to " ++ url.display ++ " failed") a)) :=
  rfl

theorem sendSigned_some (url payload : Value) (k : PrivateKey) : c.sendSigned url payload (some k) =
    (c.post url payload [] false (some k) none >>= fun a =>
      Action.ofExcept (accepted ("Request to " ++ url.display ++ " failed") a)) :=
  rfl

theorem snd_forget {α : Type} (x : Action State α) : (x.forget s).2 = (x s).2 :=
  rfl

/-- **An operation consists of steps with the signed requests that it permits.** -/
theorem steps_act (o : Operation) : Steps c o.Permits s (o.act c s).2 := by
  cases o with
  | resourceUrl name => exact (quiet_resourceUrl c s name).steps
  | resourceUrl? name => exact (quiet_resourceUrl? c s name).steps
  | directory => exact (quiet_directory c s).steps
  | login => exact (steps_login c s fun _ h => h).1
  | requestCertificate url =>
    rw [Operation.act, snd_forget, Client.requestCertificate]
    exact (steps_login_post c s ⟨.account, .text url, .null⟩ rfl true (some chainType) _).mono
      fun _ h => h
  | requestResource url =>
    rw [Operation.act, snd_forget, Client.requestResource]
    exact Action.bind_rel (fun h h' => h.trans h') (quiet_fetch c s _).steps fun _ _ _ => .refl
  | sendSigned url payload key =>
    cases key with
    | none =>
      rw [Operation.act, snd_forget, sendSigned_none]
      exact (steps_login_post c s ⟨.account, url, payload⟩ rfl false none _).mono fun _ h => h
    | some k =>
      rw [Operation.act, snd_forget, sendSigned_some]
      refine Action.bind_rel (fun h h' => h.trans h') ?_ fun _ _ _ => .refl
      exact (steps_post c (P := (Operation.sendSigned url payload k).Permits)
        (d := ⟨.key k, url, payload⟩) false none s rfl trivial).1
  | advance seconds => exact .single (.surround s _ rfl)
  | route url replies => exact .single (.surround s _ rfl)

/-- **A run consists of steps with the signed requests that its operations permit.** -/
theorem steps_run (ops : List Operation) :
    Steps c (fun d => ∃ o ∈ ops, o.Permits d) s (c.run ops s) := by
  induction ops generalizing s with
  | nil => exact .refl
  | cons o ops ih =>
    refine .trans ((steps_act c s o).mono fun d hd => ⟨o, List.mem_cons_self, hd⟩) ?_
    exact (ih (o.act c s).2).mono fun d ⟨o', ho, hd⟩ => ⟨o', List.mem_cons_of_mem o ho, hd⟩

end Operations

end Client

end AcmeClient
