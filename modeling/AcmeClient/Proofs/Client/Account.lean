import AcmeClient.Proofs.Client.Keeping

/-!
# The account is looked up until it is known

RFC 8555, section 7.3.1.

* `Exchange.isLookup`: the look-ups;
* `Client.Settled`, **`Client.Steps.settled`**: once the account is known, it stays, and there are
  no more look-ups;
* `Client.login_of_ok`, `Client.login_of_error`: what comes of logging in;
* **`Client.account_once_known`**: the account of a run.
-/

namespace AcmeClient

/-- The request looks up the account. -/
def Exchange.isLookup (e : Exchange) : Bool :=
  e.request.content.any Jws.isLookup

namespace Client

open Relation

variable {c : Client} {P : Draft → Prop} {s t w : State} {d : Draft} {q : Request} {j : Jws}

theorem isLookup_of_unsigned {e : Exchange} (h : e.request.content = none) :
    e.isLookup = false := by
  rw [Exchange.isLookup, h, Option.any_none]

theorem isLookup_of_written (h : d.Written c s w q j) :
    (w.spending.made q).isLookup = true ↔ d.purpose = .lookup := by
  rw [Exchange.isLookup, made_request, h.content, Option.any_some]
  exact Draft.isLookup_header j h.header

/-! ## A known account -/

/-- The address of the account stays as it is, and no look-up is sent. -/
structure Settled (s t : State) : Prop where
  account : t.account = s.account
  silent : Adds (fun e => e.isLookup = false) s t

theorem Step.settled (h : Step c P s t) (known : s.account.isTrue = true) : Settled s t := by
  have silent : Adds (fun e => e.isLookup = false) s t := by
    refine h.adds (fun e => isLookup_of_unsigned) fun {w q j} d _ fits written => ?_
    rw [← Bool.not_eq_true, isLookup_of_written written]
    intro lookup
    -- a look-up is written only while the account is unknown
    have unknown : s.account.isTrue = false := by
      simpa only [Draft.Fits, lookup] using fits
    rw [unknown] at known
    cases known
  refine ⟨?_, silent⟩
  have change := account_change c
  cases h with
  | quiet h => exact h.account_eq
  | waste => rfl
  | surround => rfl
  | settle v unknown _ =>
    rw [unknown] at known
    cases known
  | @post w q j d _ _ written =>
    have fresh := change.quiets (quiets_of_freshen written.fresh)
    exact change.trans (change.trans fresh (change.spend w)) (change.sent q _)

/-- **An account that is known stays, and is not looked up again.** -/
theorem Steps.settled (h : Steps c P s t) (known : s.account.isTrue = true) : Settled s t := by
  induction h with
  | refl => exact ⟨rfl, .of_eq rfl⟩
  | @tail t u _ step ih =>
    obtain ⟨account, silent⟩ := ih
    obtain ⟨account', silent'⟩ := step.settled (by rw [account, known])
    exact ⟨account'.trans account, silent.trans silent'⟩

theorem login_of_known (known : s.account.isTrue = true) : c.login s = (.ok (), s) := by
  rw [login_eq, if_pos known]

/-! ## Logging in -/

/-- **Where logging in succeeds, the last answer brought the address of the account.** -/
theorem login_of_ok (unknown : s.account.isTrue = false) (h : c.login s = (.ok (), t)) :
    ∃ e ∈ t.history.getLast?, e.account? = some t.account := by
  rw [login_eq, if_neg (by simp [unknown]), Action.bind_eq_ok_iff] at h
  obtain ⟨url, u, hu, h⟩ := h
  obtain ⟨a, v, hp, hk⟩ := Action.bind_eq_ok_iff.mp h
  have quiet := quiet_resourceUrl c s "newAccount"
  rw [hu] at quiet
  have fits : Draft.Fits ⟨.lookup, url, lookupPayload⟩ u := by
    change u.account.isTrue = false
    rw [quiet.account_eq, unknown]
  obtain ⟨-, answered⟩ := (steps_post c (P := IsLookup) (d := ⟨.lookup, url, lookupPayload⟩) false
    none u ⟨url, rfl⟩ fits).2 a v hp
  obtain ⟨location, accepted, there, m, kept⟩ | ⟨x, failed⟩ := keepAccount_cases c v a
  · rw [kept] at hk
    cases hk
    exact answered.account? rfl accepted there
  · rw [failed] at hk
    cases hk

theorem login_adds (c : Client) (s : State) :
    Adds (fun e => e.request.content = none ∨ e.isLookup = true) s (c.login s).2 := by
  refine (steps_login c s (P := IsLookup) fun _ h => h).1.adds (fun e => .inl)
    fun {s w q j} d hd written => .inr ?_
  obtain ⟨url, rfl⟩ := hd
  exact (isLookup_of_written written).mpr rfl

/-- **Where logging in fails, the account stays unknown.** -/
theorem login_of_error {x : Error} (h : c.login s = (.error x, t)) :
    s.account.isTrue = false ∧ t.account = s.account := by
  rw [login_eq] at h
  split_ifs at h with known
  · cases congrArg Prod.fst h
  refine ⟨by simpa using known, ?_⟩
  have change := account_change c
  have quiet := change.quiets (quiet_resourceUrl c s "newAccount")
  rcases hu : c.resourceUrl "newAccount" s with ⟨e | url, u⟩
  all_goals rw [hu] at quiet
  · rw [Action.bind_of_error hu] at h
    cases h
    exact quiet
  · rw [Action.bind_of_ok hu] at h
    have posted := post_rel c change url lookupPayload c.lookupHeader false none none u
    rcases hp : c.post url lookupPayload c.lookupHeader false none none u with ⟨e | a, v⟩
    all_goals rw [hp] at posted
    · rw [Action.bind_of_error hp] at h
      cases h
      exact change.trans quiet posted
    · rw [Action.bind_of_ok hp] at h
      obtain ⟨location, -, -, m, kept⟩ | ⟨x, failed⟩ := keepAccount_cases c v a
      · rw [kept] at h
        cases h
      · rw [failed] at h
        cases h
        exact change.trans quiet posted

/-! ## Runs -/

/-- **The account is looked up until it is known.**

Where logging in succeeds for an account that is not known, the last answer accepted the look-up,
and the address in its header is kept. Where it fails, the account is as unknown as before, only
look-ups were signed, and whatever else was to be done on behalf of the account is not done. Once
there is an address, be it configured or looked up, it stays, and there are no look-ups any more. -/
theorem account_once_known (c : Client) (configured : Value) (clock : Int) (routes : Routes Reply)
    (ops : List Operation) (P : Draft → Prop) :
    (configured.isTrue = true →
      ∀ e ∈ (c.run ops (.start configured clock routes)).history, e.isLookup = false) ∧
    ∀ s : State,
      Steps c (fun d => ∃ o ∈ ops, o.Permits d) s (c.run ops s) ∧
      (∀ t, c.login s = (.ok (), t) → s.account.isTrue = false →
        ∃ e ∈ t.history.getLast?, e.account? = some t.account) ∧
      (∀ x t, c.login s = (.error x, t) → s.account.isTrue = false ∧ t.account = s.account ∧
        Adds (fun e => e.request.content = none ∨ e.isLookup = true) s t ∧
        (∀ url, c.requestCertificate url s = (.error x, t)) ∧
        ∀ url payload, c.sendSigned url payload none s = (.error x, t)) ∧
      (s.account.isTrue = true → ∀ t, Steps c P s t → Settled s t ∧ c.login t = (.ok (), t)) := by
  refine ⟨fun known => ?_, fun s => ⟨steps_run c s ops, fun t h unknown => ?_, fun x t h => ?_,
    fun known t h => ?_⟩⟩
  · obtain ⟨new, history, silent⟩ :=
      ((steps_run c (.start configured clock routes) ops).settled known).silent
    rw [history]
    exact silent
  · exact login_of_ok unknown h
  · obtain ⟨unknown, account⟩ := login_of_error h
    have adds := login_adds c s
    rw [h] at adds
    exact ⟨unknown, account, adds, fun _ => Action.bind_of_error h,
      fun _ _ => Action.bind_of_error h⟩
  · have settled := h.settled known
    exact ⟨settled, login_of_known (by rw [settled.account, known])⟩

/-- An authority that accepts look-ups without saying where the account is. -/
def forgetful : Routes Reply :=
  [("https://ca/a", [sampleReply "n1"]),
    ("https://ca/directory", [.response 200 .missing
      (Octets.ofString "\x7b\"newAccount\": \"https://ca/b\"\x7d") false]),
    ("https://ca/b", [.response 200 (.table [("Location", .text ""),
      ("Replay-Nonce", .text "n2")]) [] false])]

/-- Logging in succeeds, the account is not known all the same, and it is looked up again. -/
theorem account_of_forgetful :
    let s := sample.run [.requestResource "https://ca/a"] (.start .null 0 forgetful)
    (sample.login s).1.isOk = true ∧ (sample.login s).2.account.isTrue = false ∧
      ((sample.run [.login, .login] s).history.filter Exchange.isLookup).length = 2 := by
  decide +kernel

end Client

end AcmeClient
