import AcmeClient.Proofs.Base64
import AcmeClient.Proofs.Certificate
import AcmeClient.Proofs.Tracing

/-!
# What a revocation sends

A revocation stops before anything is sent, or sends one request.

* `Revocation.Sendable`, `Revocation.Acceptable`: the certificates and the reasons that can be sent;
* `Revocation.payload_eq_ok_iff`, `Revocation.Describes`: the request for them, and what it tells;
* `Revocation.Ready`: a certificate and a reason that can be sent, and an address to send them to;
* `Revocation.revoke_of_ready`, `Revocation.revoke_of_not_ready`: what is done with and without;
* **`Revocation.sends_once_or_nothing`**: both ways to revoke a certificate send the same request
  once, or fail and send nothing.
-/

namespace AcmeClient

open Authority (Access)

namespace Revocation

/-! ## Requests -/

/-- The certificate has this encoding, and this serial number in hexadecimal digits. -/
inductive Sendable : Certificate.Given → Octets → String → Prop where
  | octets {b : Octets} {c : Certificate} (h : Certificate.ofDer b = .ok c) :
    Sendable (.octets b) b c.serialText
  | certificate {c : Certificate} {b : Octets} (h : c.encode = .ok b) :
    Sendable (.certificate c) b c.serialText

/-- The reasons of RFC 5280, section 5.3.1. -/
def codes : List Int :=
  [0, 1, 2, 3, 4, 5, 6, 8, 9, 10]

/-- No reason, or one of RFC 5280. -/
def Acceptable (reason : Option Int) : Prop :=
  ∀ n ∈ reason, n ∈ codes

/-- A reason as it is handed over. -/
def asValue : Option Int → Value
  | none => .null
  | some n => .int n

/-- The member for a reason. -/
def reasonMembers : Option Int → Members
  | none => []
  | some n => [("reason", .int n)]

variable {c : Certificate.Given} {reason : Option Int} {der : Octets} {serial : String}
  {request : Members}

theorem sendable_iff : Sendable c der serial ↔ c.encode = .ok der ∧ c.serialText = .ok serial := by
  constructor
  · rintro (h | h)
    · exact ⟨rfl, Action.except_bind_eq_ok_iff.mpr ⟨_, h, rfl⟩⟩
    · exact ⟨h, rfl⟩
  · rintro ⟨he, hs⟩
    cases c with
    | octets b =>
      obtain ⟨c, hc, same⟩ := Action.except_bind_eq_ok_iff.mp hs
      cases he
      cases same
      exact .octets hc
    | certificate c =>
      cases hs
      exact .certificate he
    | other => cases he

theorem codes_eq : codes = Reason.all.map fun r => (r.code : Int) :=
  rfl

theorem code_of_ofCode? {n : Int} {r : Reason} (h : Reason.ofCode? n = some r) :
    (r.code : Int) = n :=
  of_decide_eq_true (List.find?_some (p := fun r : Reason => decide ((r.code : Int) = n)) h)

theorem ofCode?_isSome_iff {n : Int} : (Reason.ofCode? n).isSome ↔ n ∈ codes := by
  rw [Reason.ofCode?, List.find?_isSome, codes_eq, List.mem_map]
  simp only [decide_eq_true_eq]

theorem reasonMember_eq_ok_iff :
    reasonMember (asValue reason) = .ok request ↔
      Acceptable reason ∧ request = reasonMembers reason := by
  cases reason with
  | none => exact ⟨fun h => ⟨nofun, (Except.ok.inj h).symm⟩, fun ⟨_, h⟩ => h ▸ rfl⟩
  | some n =>
    have acceptable : Acceptable (some n) ↔ (Reason.ofCode? n).isSome := by
      rw [ofCode?_isSome_iff]
      exact ⟨fun h => h n rfl, fun h m hm => Option.some.inj hm ▸ h⟩
    rw [acceptable]
    have looked : Reason.ofValue? (.int n) = Reason.ofCode? n := rfl
    unfold asValue reasonMember
    dsimp only
    rw [looked]
    cases hr : Reason.ofCode? n with
    | none => exact ⟨nofun, fun ⟨h, _⟩ => nomatch h⟩
    | some r =>
      rw [← code_of_ofCode? hr]
      exact ⟨fun h => ⟨rfl, (Except.ok.inj h).symm⟩, fun ⟨_, h⟩ => h ▸ rfl⟩

theorem payload_eq_ok_iff :
    payload c (asValue reason) = .ok request ↔ ∃ der, c.encode = .ok der ∧ Acceptable reason ∧
      request = ("certificate", .text (Base64.encodeUrl der)) :: reasonMembers reason := by
  rw [payload, Action.except_bind_eq_ok_iff]
  refine exists_congr fun der => and_congr_right fun _ => ?_
  rw [Action.except_bind_eq_ok_iff]
  constructor
  · rintro ⟨tail, ht, same⟩
    obtain ⟨known, rfl⟩ := reasonMember_eq_ok_iff.mp ht
    exact ⟨known, (Except.ok.inj same).symm⟩
  · rintro ⟨known, rfl⟩
    exact ⟨_, reasonMember_eq_ok_iff.mpr ⟨known, rfl⟩, rfl⟩

/-- The request is about a certificate with this encoding, and gives the reason if there is one. -/
structure Describes (request : Members) (der : Octets) (reason : Option Int) : Prop where
  names : request.map Prod.fst = "certificate" :: if reason.isSome then ["reason"] else []
  certificate : ∃ t, request.find? "certificate" = some (.text t) ∧ Base64.decodeUrl? t = some der
  reason : request.find? "reason" = reason.map Value.int

theorem describes_payload :
    Describes (("certificate", .text (Base64.encodeUrl der)) :: reasonMembers reason) der reason where
  names := by cases reason <;> rfl
  certificate := ⟨_, rfl, Base64.decodeUrl?_encodeUrl der⟩
  reason := by cases reason <;> rfl

/-! ## Revocations -/

/-- Who signs a revocation: the account, or a key of its own. -/
inductive Signer where
  | account
  | own (key : Option PrivateKey)

namespace Signer

/-- The key that is handed over to sign with. -/
def key : Signer → Option PrivateKey
  | account => none
  | own key => key

/-- How messages call the key. -/
def means : Signer → String
  | account => "account key"
  | own _ => "domain key"

/-- Revoke a certificate. -/
def revoke {σ : Type} (A : Authority σ) : Signer → Certificate.Given → Value → Action σ Unit
  | account => revokeWithAccount A
  | own key => revokeWithKey A key

theorem revoke_eq {σ : Type} (A : Authority σ) (k : Signer) :
    k.revoke A = Revocation.revoke A k.means k.key := by
  cases k <;> rfl

end Signer

/-- The message before anything is asked of the authority. -/
def announcement (k : Signer) (serial : String) : Log.Entry :=
  Log.info ("Revoking certificate " ++ serial ++ " using the " ++ k.means)

/-- The message after a revocation. -/
def success : Log.Entry :=
  Log.info "Revocation successful"

theorem announcement_ne_success (k : Signer) (serial : String) :
    announcement k serial ≠ success := by
  intro h
  have message := congrArg (fun e => e.message.toList[4]?) h
  simp [announcement, success, Log.info] at message

variable {σ : Type} {A : Authority σ} {k : Signer} {s : σ} {url : Value}

/-- A certificate and a reason that can be sent, and an address where the authority takes them. -/
structure Ready (A : Authority σ) (k : Signer) (c : Certificate.Given) (reason : Option Int)
    (s : σ) (der : Octets) (serial : String) (url : Value) : Prop where
  sendable : Sendable c der serial
  acceptable : Acceptable reason
  offered : (A.resourceUrl? resource (A.note (announcement k serial) s)).1 = .ok url
  address : url ≠ .null

/-- What is written down after the answer to the request. -/
def ending {α : Type} : Except Error α → List Access
  | .ok _ => [.note success]
  | .error _ => []

/-- An access that sends nothing signed and tells of no success. -/
def Harmless : Access → Prop
  | .note e => e ≠ success
  | .signed .. => False
  | _ => True

theorem revoke_of_payload (hp : payload c (asValue reason) = .ok request)
    (hs : c.serialText = .ok serial) :
    k.revoke A c (asValue reason) s = (A.resourceUrl resource >>= fun url =>
      A.sendSigned url (.object request) k.key >>= fun _ => A.say success)
        (A.note (announcement k serial) s) := by
  rw [Signer.revoke_eq, Revocation.revoke, Action.ofExcept_bind_of_ok hp,
    Action.ofExcept_bind_of_ok hs]
  rfl

theorem resourceUrl_of_ok {name : String} {t : σ} (h : A.resourceUrl? name s = (.ok url, t))
    (hu : url ≠ .null) : A.resourceUrl name s = (.ok url, t) := by
  rw [Authority.resourceUrl, Action.bind_of_ok h]
  cases url <;> first | contradiction | rfl

theorem resourceUrl_cases {name : String} {r : Except Error Value} {t : σ}
    (h : A.resourceUrl? name s = (r, t)) :
    (∃ url, r = .ok url ∧ url ≠ .null) ∨ ∃ e, A.resourceUrl name s = (.error e, t) := by
  rcases r with e | url
  · exact .inr ⟨e, Action.bind_of_error h⟩
  · by_cases hu : url = .null
    · subst hu
      exact .inr ⟨_, Action.bind_of_ok h⟩
    · exact .inl ⟨url, rfl, hu⟩

theorem sendSigned_say (A : Authority σ) (url payload : Value) (key : Option PrivateKey)
    (l : List Access) (s : σ) : ∃ outcome t,
      (A.traced.sendSigned url payload key >>= fun _ => A.traced.say success) (l, s) =
        (outcome.map fun _ => (), (l ++ .signed url payload key outcome :: ending outcome, t)) := by
  rcases h : A.sendSigned url payload key s with ⟨e | a, t⟩
  · exact ⟨.error e, t, Action.bind_of_error (Authority.sendSigned_traced h l)⟩
  · refine ⟨.ok a, A.note success t, ?_⟩
    rw [Action.bind_of_ok (Authority.sendSigned_traced h l), Authority.say_traced,
      List.append_assoc]
    rfl

/-- **What is ready is sent once.** -/
theorem revoke_of_ready (h : Ready A k c reason s der serial url)
    (hp : payload c (asValue reason) = .ok request) :
    ∃ outcome t, k.revoke A.traced c (asValue reason) ([], s) =
      (outcome.map fun _ => (), (.note (announcement k serial) :: .lookUp resource (.ok url) ::
        .signed url (.object request) k.key outcome :: ending outcome, t)) := by
  obtain ⟨t, found⟩ : ∃ t, A.resourceUrl? resource (A.note (announcement k serial) s) =
      (.ok url, t) := ⟨_, Prod.ext h.offered rfl⟩
  have address := resourceUrl_of_ok
    (Authority.resourceUrl?_traced found [.note (announcement k serial)]) h.address
  obtain ⟨outcome, u, sent⟩ := sendSigned_say A url (.object request) k.key
    ([.note (announcement k serial)] ++ [.lookUp resource (.ok url)]) t
  exact ⟨outcome, u, (revoke_of_payload hp (sendable_iff.mp h.sendable).2).trans
    ((Action.bind_of_ok address).trans sent)⟩

/-- **What is not ready is not sent.** -/
theorem revoke_of_not_ready (h : ∀ der serial url, ¬ Ready A k c reason s der serial url) :
    ∃ e l t, k.revoke A.traced c (asValue reason) ([], s) = (.error e, (l, t)) ∧
      ∀ a ∈ l, Harmless a := by
  cases hp : payload c (asValue reason) with
  | error e =>
    refine ⟨e, [], s, ?_, nofun⟩
    rw [Signer.revoke_eq]
    exact Action.ofExcept_bind_of_error hp
  | ok request =>
    obtain ⟨der, he, known, -⟩ := payload_eq_ok_iff.mp hp
    cases hs : c.serialText with
    | error e =>
      refine ⟨e, [], s, ?_, nofun⟩
      rw [Signer.revoke_eq]
      exact (Action.ofExcept_bind_of_ok hp).trans (Action.ofExcept_bind_of_error hs)
    | ok serial =>
      rcases hr : A.resourceUrl? resource (A.note (announcement k serial) s) with ⟨r, t⟩
      have found := Authority.resourceUrl?_traced hr [.note (announcement k serial)]
      obtain ⟨url, rfl, hu⟩ | ⟨e, failed⟩ := resourceUrl_cases found
      · exact absurd ⟨sendable_iff.mpr ⟨he, hs⟩, known, congrArg Prod.fst hr, hu⟩ (h der serial url)
      · refine ⟨e, _, t, (revoke_of_payload hp hs).trans (Action.bind_of_error failed), ?_⟩
        intro a ha
        rcases List.mem_cons.mp ha with rfl | ha
        · exact announcement_ne_success k serial
        · rw [List.mem_singleton.mp ha]
          trivial

theorem exists_request (c : Certificate.Given) (reason : Option Int) :
    ∃ request : Members, ∀ der serial, Sendable c der serial → Acceptable reason →
      Describes request der reason ∧ payload c (asValue reason) = .ok request := by
  cases hp : payload c (asValue reason) with
  | ok request =>
    refine ⟨request, fun der serial hc _ => ⟨?_, rfl⟩⟩
    obtain ⟨der', he, -, rfl⟩ := payload_eq_ok_iff.mp hp
    cases he.symm.trans (sendable_iff.mp hc).1
    exact describes_payload
  | error e =>
    refine ⟨[], fun der serial hc known => ?_⟩
    cases hp.symm.trans (payload_eq_ok_iff.mpr ⟨der, (sendable_iff.mp hc).1, known, rfl⟩)

/-- **Both ways to revoke a certificate send the same request once, or fail and send nothing.** The
request is about this certificate and this reason; it goes to the address of the directory and is
signed with the key that was handed over. Its error is the error of the revocation, and success is
told where it succeeds. -/
theorem sends_once_or_nothing (c : Certificate.Given) (reason : Option Int) :
    ∃ request : Members, ∀ {σ : Type} (A : Authority σ) (k : Signer) (s : σ),
      let p := k.revoke A.traced c (asValue reason) ([], s)
      k.revoke A c (asValue reason) s = (p.1, p.2.2) ∧
        (∀ der serial url, Ready A k c reason s der serial url →
          Describes request der reason ∧ ∃ outcome, p.1 = outcome.map (fun _ => ()) ∧
            p.2.1 = [.note (announcement k serial), .lookUp resource (.ok url),
              .signed url (.object request) k.key outcome] ++ ending outcome) ∧
        ((∀ der serial url, ¬ Ready A k c reason s der serial url) →
          (∃ e, p.1 = .error e) ∧ ∀ a ∈ p.2.1, Harmless a) := by
  obtain ⟨request, hr⟩ := exists_request c reason
  refine ⟨request, fun {σ} A k s => ⟨?_, fun der serial url ready => ?_, fun never => ?_⟩⟩
  · rw [Signer.revoke_eq, Signer.revoke_eq]
    exact (simulates_revoke A.simulates_traced k.means k.key c (asValue reason) ([], s)).symm
  · obtain ⟨describes, hp⟩ := hr der serial ready.sendable ready.acceptable
    obtain ⟨outcome, t, ht⟩ := revoke_of_ready ready hp
    rw [ht]
    exact ⟨describes, outcome, rfl, rfl⟩
  · obtain ⟨e, l, t, ht, harmless⟩ := revoke_of_not_ready never
    rw [ht]
    exact ⟨⟨e, rfl⟩, harmless⟩

/-- An authority that takes every revocation at one address. -/
def taking (url : String) : Authority Unit :=
  { Authority.general (fun _ => 0) (fun _ s => s) with
    resourceUrl? := fun _ s => (.ok (.text url), s)
    sendSigned := fun _ _ _ s => (.ok (.object [], .table []), s) }

theorem ready_smallest : Ready (taking "https://ca/revoke") .account
    (.octets Certificate.smallest) (some 0) () Certificate.smallest "7"
    (.text "https://ca/revoke") where
  sendable := .octets Certificate.ofDer_smallest
  acceptable := fun _ h => Option.some.inj h ▸ by decide
  offered := rfl
  address := nofun

/-- The reason 0 is sent, and 7 is not one. -/
theorem sends_once_smallest : ∃ request, Describes request Certificate.smallest (some 0) ∧
    (∃ outcome, (Signer.account.revoke (taking "https://ca/revoke").traced
      (.octets Certificate.smallest) (.int 0) ([], ())).2.1 =
        [.note (announcement .account "7"), .lookUp "revokeCert" (.ok (.text "https://ca/revoke")),
          .signed (.text "https://ca/revoke") (.object request) none outcome] ++ ending outcome) ∧
    ∃ e, (Signer.account.revoke (taking "https://ca/revoke").traced
      (.octets Certificate.smallest) (.int 7) ([], ())).1 = .error e := by
  obtain ⟨request, h⟩ := sends_once_or_nothing (.octets Certificate.smallest) (some 0)
  obtain ⟨describes, outcome, -, sent⟩ :=
    (h (taking "https://ca/revoke") .account ()).2.1 _ _ _ ready_smallest
  obtain ⟨_, h'⟩ := sends_once_or_nothing (.octets Certificate.smallest) (some 7)
  have refused := (h' (taking "https://ca/revoke") .account ()).2.2 fun _ _ _ ready =>
    absurd (ready.acceptable 7 rfl) (by decide)
  exact ⟨request, describes, ⟨outcome, sent⟩, refused.1⟩

end Revocation

end AcmeClient
