import AcmeClient.Proofs.CertificateResource.Asking

/-!
# Operations on certificates

* `CertificateResource.Operation`, `CertificateResource.Operation.act`: what a certificate can be
  asked for;
* **`CertificateResource.Operation.keeps_act`**, **`CertificateResource.Operation.asks_act`**: no
  operation asks for a known certificate, and each one that needs the chain asks for an unknown one;
* **`CertificateResource.Operation.simulates_act`**: they do the same with an authority that keeps
  books.
-/

namespace AcmeClient

open Authority (Delivery)

namespace CertificateResource

variable {σ α β : Type} {location : String} {d : Download} {c : CertificateResource}

/-- What a certificate can be asked for. -/
inductive Operation where
  | download
  | certificate
  | chain
  | alternates
  | alternateResources
  | pem
  | certId
  | renewalLocation?
  | hasRenewalInfo
  | renewalInfo
  | revoke (reason : Value)

namespace Operation

/-- An operation, without its result. -/
def act (A : Authority σ) : Operation → Action (CertificateResource × σ) Unit
  | download => (CertificateResource.download A).forget
  | certificate => (CertificateResource.certificate A).forget
  | chain => (CertificateResource.chain A).forget
  | alternates => (CertificateResource.alternates A).forget
  | alternateResources => (CertificateResource.alternateResources A).forget
  | pem => (CertificateResource.pem A).forget
  | certId => (CertificateResource.certId A).forget
  | renewalLocation? => (CertificateResource.renewalLocation? A).forget
  | hasRenewalInfo => (CertificateResource.hasRenewalInfo A).forget
  | renewalInfo => (CertificateResource.renewalInfo A).forget
  | revoke reason => CertificateResource.revoke A reason

/-- An operation needs the chain. Those about renewal information do if the authority has it. -/
def Needs (A : Authority σ) (s : σ) : Operation → Prop
  | renewalLocation? | hasRenewalInfo | renewalInfo => Located A s
  | _ => True

variable (A : Authority σ) (o : Operation) {l : List Delivery} {s : σ}

theorem keeps_act : Keeps location d (o.act A.recorded) := by
  cases o with
  | download => exact (keeps_download A).forget
  | certificate => exact (keeps_certificate A).forget
  | chain => exact (keeps_chain A).forget
  | alternates => exact (keeps_alternates A).forget
  | alternateResources => exact (keeps_alternateResources A).forget
  | pem => exact (keeps_pem A).forget
  | certId => exact (keeps_certId A).forget
  | renewalLocation? => exact (keeps_renewalLocation? A).forget
  | hasRenewalInfo => exact (keeps_hasRenewalInfo A).forget
  | renewalInfo => exact (keeps_renewalInfo A).forget
  | revoke reason => exact keeps_revoke A reason

theorem asks_act (h : o.Needs A s) : Asks location l s (o.act A.recorded) := by
  cases o with
  | download => exact (asks_download A).forget
  | certificate => exact (asks_certificate A).forget
  | chain => exact (asks_chain A).forget
  | alternates => exact (asks_alternates A).forget
  | alternateResources => exact (asks_alternateResources A).forget
  | pem => exact (asks_pem A).forget
  | certId => exact (asks_certId A).forget
  | renewalLocation? => exact (asks_renewalLocation? A h).forget
  | hasRenewalInfo => exact (asks_hasRenewalInfo A h).forget
  | renewalInfo => exact (asks_renewalInfo A h).forget
  | revoke reason => exact asks_revoke A reason

theorem act_of_not_needs (location : String) (l : List Delivery) (h : ¬ o.Needs A s) :
    ∃ r t, o.act A.recorded (ofLocation location, (l, s)) = (r, (ofLocation location, (l, t))) := by
  have away : ¬ Located A s → ∃ r t, CertificateResource.renewalLocation? A.recorded
      (ofLocation location, (l, s)) = (r, (ofLocation location, (l, t))) ∧
        ∀ url, r ≠ .ok (some url) := renewalLocation?_of_not_located A
  cases o with
  | renewalLocation? =>
    obtain ⟨r, t, hr, -⟩ := away h
    exact ⟨_, t, by rw [act, Action.forget, hr]⟩
  | hasRenewalInfo =>
    obtain ⟨r, t, hr, -⟩ := away h
    obtain ⟨r', hr'⟩ : ∃ r', CertificateResource.hasRenewalInfo A.recorded
        (ofLocation location, (l, s)) = (r', (ofLocation location, (l, t))) := by
      unfold CertificateResource.hasRenewalInfo
      cases r with
      | error e => exact ⟨_, Action.bind_of_error hr⟩
      | ok v => exact ⟨_, Action.bind_of_ok hr⟩
    exact ⟨_, t, by rw [act, Action.forget, hr']⟩
  | renewalInfo =>
    obtain ⟨r, t, hr, nowhere⟩ := away h
    obtain ⟨r', hr'⟩ : ∃ r', CertificateResource.renewalInfo A.recorded
        (ofLocation location, (l, s)) = (r', (ofLocation location, (l, t))) := by
      unfold CertificateResource.renewalInfo
      rw [Action.get_bind]
      rcases r with e | url?
      · exact ⟨_, Action.bind_of_error hr⟩
      · cases url? with
        | none => exact ⟨_, Action.bind_of_ok hr⟩
        | some url => exact absurd rfl (nowhere url)
    exact ⟨_, t, by rw [act, Action.forget, hr']⟩
  | _ => exact absurd trivial h

/-! ## Authorities that keep books -/

section Simulates

open AcmeClient.Action (Simulates simulates_pure simulates_fail simulates_ofExcept
  simulates_modifyFirst)

variable {τ : Type} {f : τ → σ} {B : Authority τ} {A : Authority σ} (h : B.Simulates f A)
include h

theorem simulates_fetch (location : String) :
    Simulates f (fetch B location) (fetch A location) := by
  refine (h.say _).bind fun _ => (h.requestCertificate location).bind fun r => ?_
  exact (simulates_ofExcept _).bind fun _ => (simulates_ofExcept _).bind fun _ => simulates_pure _

theorem simulates_download : Simulates (Prod.map id f)
    (CertificateResource.download B) (CertificateResource.download A) := by
  refine Simulates.get_bind fun ⟨c, t⟩ => ?_
  dsimp only [Prod.map, id]
  cases c.download? with
  | some d => exact simulates_pure d
  | none =>
    refine (simulates_fetch h c.location).onSecond.bind fun d => ?_
    exact (simulates_modifyFirst _).bind fun _ => simulates_pure d

omit h in
theorem simulates_loading {x : Action (CertificateResource × τ) α}
    {y : Action (CertificateResource × σ) α} (h : Simulates (Prod.map id f) x y) :
    Simulates (Prod.map id f) (loading x) (loading y) :=
  Simulates.get_bind fun _ => h.mapError _

theorem simulates_loaded : Simulates (Prod.map id f) (loaded B) (loaded A) :=
  simulates_loading (simulates_download h)

theorem simulates_chain : Simulates (Prod.map id f)
    (CertificateResource.chain B) (CertificateResource.chain A) :=
  (simulates_loaded h).bind fun _ => simulates_pure _

theorem simulates_alternates : Simulates (Prod.map id f)
    (CertificateResource.alternates B) (CertificateResource.alternates A) :=
  (simulates_loaded h).bind fun _ => simulates_pure _

theorem simulates_certId : Simulates (Prod.map id f)
    (CertificateResource.certId B) (CertificateResource.certId A) := by
  refine Simulates.get_bind fun ⟨c, t⟩ => ?_
  dsimp only [Prod.map, id]
  cases c.certId? with
  | some i => exact simulates_pure i
  | none =>
    refine (simulates_chain h).bind fun cs => (simulates_ofExcept _).bind fun i => ?_
    exact (simulates_modifyFirst _).bind fun _ => simulates_pure i

theorem simulates_renewalLocation? : Simulates (Prod.map id f)
    (CertificateResource.renewalLocation? B) (CertificateResource.renewalLocation? A) := by
  refine (simulates_loading (h.resourceUrl? renewalResource).onSecond).bind fun v => ?_
  cases v with
  | text base => exact (simulates_certId h).bind fun _ => simulates_pure _
  | null => exact simulates_pure _
  | _ => exact simulates_fail _

theorem simulates_alternateResources : Simulates (Prod.map id f)
    (CertificateResource.alternateResources B) (CertificateResource.alternateResources A) := by
  refine (simulates_alternates h).bind fun urls => Simulates.get_bind fun ⟨c, t⟩ => ?_
  dsimp only [Prod.map, id]
  cases c.alternateResources? with
  | some rs => exact simulates_pure rs
  | none => exact (simulates_modifyFirst _).bind fun _ => simulates_pure _

theorem simulates_certificate : Simulates (Prod.map id f)
    (CertificateResource.certificate B) (CertificateResource.certificate A) := by
  refine (simulates_chain h).bind fun cs => ?_
  cases cs with
  | nil => exact simulates_fail _
  | cons c cs => exact simulates_pure c

theorem simulates_renewalInfo : Simulates (Prod.map id f)
    (CertificateResource.renewalInfo B) (CertificateResource.renewalInfo A) := by
  refine Simulates.get_bind fun ⟨c, t⟩ => ?_
  dsimp only [Prod.map, id]
  cases c.renewalInfo? with
  | some i => exact simulates_pure i
  | none =>
    refine (simulates_renewalLocation? h).bind fun v => ?_
    cases v with
    | none => exact simulates_fail _
    | some url =>
      have info : Simulates f (fetchRenewalInfo B url) (fetchRenewalInfo A url) :=
        ((RenewalInfo.simulates_fetch h url).mapError _).bind fun _ => simulates_pure _
      refine info.onSecond.bind fun i => ?_
      exact (simulates_modifyFirst _).bind fun _ => simulates_pure i

theorem simulates_revoke (reason : Value) : Simulates (Prod.map id f)
    (CertificateResource.revoke B reason) (CertificateResource.revoke A reason) :=
  (simulates_certificate h).bind fun c =>
    (Revocation.simulates_revoke h _ none (.certificate c) reason).onSecond

/-- **An operation does the same with an authority that keeps books.** -/
theorem simulates_act : Simulates (Prod.map id f) (o.act B) (o.act A) := by
  cases o with
  | download => exact (simulates_download h).forget
  | certificate => exact (simulates_certificate h).forget
  | chain => exact (simulates_chain h).forget
  | alternates => exact (simulates_alternates h).forget
  | alternateResources => exact (simulates_alternateResources h).forget
  | pem => exact ((simulates_chain h).bind fun _ => simulates_ofExcept _).forget
  | certId => exact (simulates_certId h).forget
  | renewalLocation? => exact (simulates_renewalLocation? h).forget
  | hasRenewalInfo =>
    exact ((simulates_renewalLocation? h).bind fun _ => simulates_pure _).forget
  | renewalInfo => exact (simulates_renewalInfo h).forget
  | revoke reason => exact simulates_revoke h reason

end Simulates

end Operation

end CertificateResource

end AcmeClient
