import AcmeClient.CertificateResource
import AcmeClient.Proofs.Chain.Parsing
import AcmeClient.Proofs.Recording

/-!
# Certificates before and after their download

* `CertificateResource.Download.ofResponse`, `Authority.Delivery.download?`: the chain and the
  alternates that a response brings;
* **`CertificateResource.download_of_none`**: a certificate that is not known is asked for, and is
  known afterwards if its chain was brought;
* `CertificateResource.Known`: what a certificate remembers follows from one download;
* `CertificateResource.Known.loaded_eq` and its like: what a known certificate answers.
-/

namespace AcmeClient

open Authority (Delivery)

namespace CertificateResource

/-- The chain and the alternates in a response from a location. -/
def Download.ofResponse (location : String) (r : Value × Headers) : Except Error Download := do
  let alternates ← Link.targets r.2 "alternate" location
  let chain ← Chain.parseBody r.1
  .ok ⟨chain, alternates⟩

end CertificateResource

/-- The chain and the alternates that a delivery brought, if it did. -/
def Authority.Delivery.download? (e : Delivery) : Option CertificateResource.Download :=
  (e.outcome.bind (CertificateResource.Download.ofResponse e.url)).toOption

namespace CertificateResource

variable {σ α β : Type} {location : String} {d : Download} {c : CertificateResource}

theorem Download.chain_ne_nil {r : Value × Headers} (h : ofResponse location r = .ok d) :
    d.chain ≠ [] := by
  unfold ofResponse at h
  cases ht : Link.targets r.2 "alternate" location with
  | error e =>
    rw [ht] at h
    cases h
  | ok alternates =>
    rw [ht] at h
    cases hc : Chain.parseBody r.1 with
    | error e =>
      rw [hc] at h
      cases h
    | ok chain =>
      rw [hc] at h
      cases h
      exact Chain.parseBody_ne_nil hc

/-- What the user is told before a certificate is asked for. -/
def announcement (location : String) : Log.Entry :=
  Log.info ("Downloading certificate from " ++ location)

theorem fetch_eq (A : Authority σ) (location : String) (s : σ) :
    fetch A location s =
      (((A.requestCertificate location (A.note (announcement location) s)).1.bind
          (Download.ofResponse location)),
        (A.requestCertificate location (A.note (announcement location) s)).2) := by
  have said : A.say (announcement location) s = (.ok (), A.note (announcement location) s) := rfl
  unfold fetch
  rw [← announcement, Action.bind_of_ok said]
  rcases h : A.requestCertificate location (A.note (announcement location) s)
    with ⟨e | ⟨body, headers⟩, t⟩
  · rw [Action.bind_of_error h]
    rfl
  · rw [Action.bind_of_ok h]
    simp only [Except.bind, Download.ofResponse]
    cases ht : Link.targets headers "alternate" location with
    | error e => rfl
    | ok alternates =>
      rw [Action.ofExcept_bind_of_ok rfl]
      cases Chain.parseBody body <;> rfl

/-! ## A certificate that was not downloaded -/

section Loading

variable (A : Authority σ) (l : List Delivery) (s : σ)

theorem download_eq (h : c.download? = none) : download A (c, s) =
    match fetch A c.location s with
    | (.error e, t) => (.error e, (c, t))
    | (.ok d, t) => (.ok d, ({ c with download? := some d }, t)) := by
  unfold download
  rw [Action.get_bind]
  simp only [h]
  rcases hf : fetch A c.location s with ⟨e | d, t⟩
  · exact Action.bind_of_error (Action.onSecond_of_eq hf c)
  · exact Action.bind_of_ok (Action.onSecond_of_eq hf c)

/-- A delivery is asked for; the chain that it brings is kept. -/
theorem download_of_none (h : c.download? = none) :
    ∃ e t, e.url = c.location ∧
      ((∃ x, e.download? = none ∧
        download A.recorded (c, (l, s)) = (.error x, (c, (l ++ [e], t)))) ∨
       ∃ d, e.download? = some d ∧ d.chain ≠ [] ∧
        download A.recorded (c, (l, s)) =
          (.ok d, ({ c with download? := some d }, (l ++ [e], t)))) := by
  let p := A.requestCertificate c.location (A.note (announcement c.location) s)
  have fetched : fetch A.recorded c.location (l, s) =
      (p.1.bind (Download.ofResponse c.location), (l ++ [⟨c.location, p.1⟩], p.2)) := by
    rw [fetch_eq]
    rfl
  refine ⟨⟨c.location, p.1⟩, p.2, rfl, ?_⟩
  rw [download_eq A.recorded (l, s) h, fetched]
  cases hr : p.1.bind (Download.ofResponse c.location) with
  | error x => exact .inl ⟨x, by rw [Delivery.download?, hr]; rfl, rfl⟩
  | ok d =>
    refine .inr ⟨d, by rw [Delivery.download?, hr]; rfl, ?_, rfl⟩
    cases hp : p.1 with
    | error x =>
      rw [hp] at hr
      cases hr
    | ok r =>
      rw [hp] at hr
      exact Download.chain_ne_nil hr

end Loading

/-! ## A certificate that was downloaded -/

theorem loading_eq (x : Action (CertificateResource × σ) α) (c : CertificateResource) (s : σ) :
    loading x (c, s) =
      ((x (c, s)).1.mapError (Error.asLoadFailure "Certificate" c.location), (x (c, s)).2) :=
  Action.mapError_eq _ x (c, s)

section Loaded

variable (A : Authority σ) (s : σ)

theorem download_of_some (h : c.download? = some d) : download A (c, s) = (.ok d, (c, s)) := by
  unfold download
  rw [Action.get_bind]
  simp only [h]
  rfl

theorem loaded_of_some (h : c.download? = some d) : loaded A (c, s) = (.ok d, (c, s)) := by
  rw [loaded, loading_eq, download_of_some A s h]
  rfl

theorem download?_of_loaded {p q : CertificateResource × σ} (h : loaded A p = (.ok d, q)) :
    q.1.download? = some d := by
  have hd : download A p = (.ok d, q) := by
    rw [loaded, loading_eq] at h
    rcases hr : download A p with ⟨e | d', q'⟩
    · rw [hr] at h
      cases h
    · rw [hr] at h
      exact h
  unfold download at hd
  rw [Action.get_bind] at hd
  cases hp : p.1.download? with
  | some d' =>
    simp only [hp] at hd
    cases hd
    exact hp
  | none =>
    simp only [hp] at hd
    obtain ⟨d', t, -, ht⟩ := Action.bind_eq_ok_iff.mp hd
    cases ht
    rfl

theorem loaded_bind_loaded (k : Download → Action (CertificateResource × σ) α) :
    (loaded A >>= fun _ => loaded A >>= k) = loaded A >>= k := by
  funext p
  rcases h : loaded A p with ⟨e | d, q⟩
  · rw [Action.bind_of_error h, Action.bind_of_error h]
  · rw [Action.bind_of_ok h, Action.bind_of_ok h,
      Action.bind_of_ok (loaded_of_some A q.2 (download?_of_loaded A h))]

/-- The identifier, computed anew. -/
def computeCertId (A : Authority σ) : Action (CertificateResource × σ) String := do
  let i ← Action.ofExcept (certIdOf (← chain A))
  Action.modifyFirst fun c => { c with certId? := some i }
  pure i

theorem certId_of_none (h : c.certId? = none) : certId A (c, s) = computeCertId A (c, s) := by
  unfold certId
  rw [Action.get_bind]
  simp only [h]
  rfl

end Loaded

/-- The certificate at a location was downloaded; what is remembered of it follows from that. -/
structure Known (location : String) (d : Download) (c : CertificateResource) : Prop where
  place : c.location = location
  stored : c.download? = some d
  full : d.chain ≠ []
  alternates : ∀ rs ∈ c.alternateResources?, rs = d.alternates.map ofLocation
  certId : ∀ i ∈ c.certId?, certIdOf d.chain = .ok i

section Known

variable (h : Known location d c) (A : Authority σ) (s : σ)
include h

theorem Known.loaded_eq : loaded A (c, s) = (.ok d, (c, s)) :=
  loaded_of_some A s h.stored

theorem Known.chain_eq : chain A (c, s) = (.ok d.chain, (c, s)) :=
  Action.bind_of_ok (h.loaded_eq A s)

theorem Known.alternates_eq :
    CertificateResource.alternates A (c, s) = (.ok d.alternates, (c, s)) :=
  Action.bind_of_ok (h.loaded_eq A s)

theorem Known.certificate_eq :
    ∃ first ∈ d.chain.head?, certificate A (c, s) = (.ok first, (c, s)) := by
  unfold certificate
  rw [Action.bind_of_ok (h.chain_eq A s)]
  cases hc : d.chain with
  | nil => exact absurd hc h.full
  | cons first rest => exact ⟨first, rfl, rfl⟩

theorem Known.pem_eq : pem A (c, s) = (pemText d.chain, (c, s)) :=
  Action.bind_of_ok (h.chain_eq A s)

theorem Known.alternateResources_eq :
    ∃ c', alternateResources A (c, s) = (.ok (d.alternates.map ofLocation), (c', s)) ∧
      Known location d c' := by
  unfold alternateResources
  rw [Action.bind_of_ok (h.alternates_eq A s), Action.get_bind]
  cases hr : c.alternateResources? with
  | some rs =>
    rw [← h.alternates rs hr]
    exact ⟨c, rfl, h⟩
  | none =>
    refine ⟨{ c with alternateResources? := some (d.alternates.map ofLocation) }, rfl, ?_⟩
    exact { h with alternates := fun rs hrs => (Option.some.inj hrs).symm }

theorem Known.computeCertId_eq :
    ∃ c', computeCertId A (c, s) = (certIdOf d.chain, (c', s)) ∧ Known location d c' := by
  unfold computeCertId
  rw [Action.bind_of_ok (h.chain_eq A s)]
  cases hc : certIdOf d.chain with
  | error e =>
    rw [Action.ofExcept_bind_of_error rfl]
    exact ⟨c, rfl, h⟩
  | ok i =>
    rw [Action.ofExcept_bind_of_ok rfl]
    refine ⟨{ c with certId? := some i }, rfl, ?_⟩
    exact { h with certId := fun j hj => Option.some.inj hj ▸ hc }

theorem Known.certId_eq :
    ∃ c', CertificateResource.certId A (c, s) = (certIdOf d.chain, (c', s)) ∧
      Known location d c' := by
  cases hi : c.certId? with
  | some i =>
    refine ⟨c, ?_, h⟩
    unfold CertificateResource.certId
    rw [Action.get_bind, h.certId i hi]
    simp only [hi]
    rfl
  | none =>
    rw [certId_of_none A s hi]
    exact h.computeCertId_eq A s

end Known

end CertificateResource

end AcmeClient
