import AcmeClient.Proofs.CertificateResource.Loading

/-!
# What is asked for

Actions on a certificate with an authority that writes down the requests for certificates.

* **`CertificateResource.Keeps`**: once the certificate is known, an action leaves it known and asks
  for no certificate;
* **`CertificateResource.Asks`**: where nothing is known of the certificate, an action asks for it,
  once, and fails without a trace if that is in vain;
* `CertificateResource.Located`: renewal information needs the chain only if the authority has it.
-/

namespace AcmeClient

open Authority (Delivery)

namespace CertificateResource

variable {σ α β : Type} {location : String} {d : Download} {c : CertificateResource}

/-! ## What actions on a certificate do -/

variable {x : Action (CertificateResource × List Delivery × σ) α}
  {f : α → Action (CertificateResource × List Delivery × σ) β}

/-- Once the certificate is known it stays so, and nothing is asked for. -/
def Keeps (location : String) (d : Download)
    (x : Action (CertificateResource × List Delivery × σ) α) : Prop :=
  ∀ c l s, Known location d c → (x (c, (l, s))).2.2.1 = l ∧ Known location d (x (c, (l, s))).2.1

theorem Keeps.bind (hx : Keeps location d x) (hf : ∀ a, Keeps location d (f a)) :
    Keeps location d (x >>= f) := by
  intro c l s h
  obtain ⟨same, known⟩ := hx c l s h
  rcases hr : x (c, (l, s)) with ⟨e | a, c', l', s'⟩
  · rw [Action.bind_of_error hr]
    rw [hr] at same known
    exact ⟨same, known⟩
  · rw [hr] at same known
    rw [Action.bind_of_ok hr, ← show l' = l from same]
    exact hf a c' l' s' known

theorem Keeps.loading (hx : Keeps location d x) :
    Keeps location d (CertificateResource.loading x) := by
  intro c l s h
  rw [loading_eq]
  exact hx c l s h

theorem Keeps.forget (hx : Keeps location d x) : Keeps location d x.forget :=
  fun c l s h => hx c l s h

theorem keeps_pure (a : α) :
    Keeps location d (pure a : Action (CertificateResource × List Delivery × σ) α) :=
  fun _ _ _ h => ⟨rfl, h⟩

theorem keeps_ofExcept (r : Except Error α) :
    Keeps location d (Action.ofExcept r : Action (CertificateResource × List Delivery × σ) α) :=
  fun _ _ _ h => ⟨rfl, h⟩

theorem keeps_onSecond (y : Action σ α) :
    Keeps location d (Action.onSecond (Action.onSecond y) :
      Action (CertificateResource × List Delivery × σ) α) :=
  fun _ _ _ h => ⟨rfl, h⟩

section Keeps

variable (A : Authority σ)

theorem keeps_loaded : Keeps location d (loaded A.recorded) := fun c l s h => by
  rw [h.loaded_eq A.recorded (l, s)]
  exact ⟨rfl, h⟩

theorem keeps_download : Keeps location d (download A.recorded) := fun c l s h => by
  rw [download_of_some A.recorded (l, s) h.stored]
  exact ⟨rfl, h⟩

theorem keeps_chain : Keeps location d (chain A.recorded) :=
  (keeps_loaded A).bind fun _ => keeps_pure _

theorem keeps_alternates : Keeps location d (alternates A.recorded) :=
  (keeps_loaded A).bind fun _ => keeps_pure _

theorem keeps_pem : Keeps location d (pem A.recorded) :=
  (keeps_chain A).bind fun _ => keeps_ofExcept _

theorem keeps_first (cs : List Certificate) :
    Keeps location d (match cs with
      | c :: _ => pure c
      | [] => Action.fail (.plain .noPosition "empty chain") :
        Action (CertificateResource × List Delivery × σ) Certificate) := by
  cases cs with
  | nil => exact keeps_ofExcept (.error _)
  | cons c cs => exact keeps_pure c

theorem keeps_certificate : Keeps location d (certificate A.recorded) :=
  (keeps_chain A).bind keeps_first

theorem keeps_revokeWith (c : Certificate) (reason : Value) :
    Keeps location d
      (Action.onSecond (Revocation.revokeWithAccount A.recorded (.certificate c) reason)) := by
  rw [Revocation.revokeWithAccount, Revocation.revoke_recorded]
  exact keeps_onSecond _

theorem keeps_revoke (reason : Value) : Keeps location d (revoke A.recorded reason) :=
  (keeps_certificate A).bind fun c => keeps_revokeWith A c reason

theorem keeps_certId : Keeps location d (certId A.recorded) := fun c l s h => by
  obtain ⟨c', he, h'⟩ := h.certId_eq A.recorded (l, s)
  rw [he]
  exact ⟨rfl, h'⟩

theorem keeps_computeCertId : Keeps location d (computeCertId A.recorded) := fun c l s h => by
  obtain ⟨c', he, h'⟩ := h.computeCertId_eq A.recorded (l, s)
  rw [he]
  exact ⟨rfl, h'⟩

theorem keeps_renewalLocation? : Keeps location d (renewalLocation? A.recorded) := by
  refine (keeps_onSecond (A.resourceUrl? renewalResource)).loading.bind fun v => ?_
  split
  · exact keeps_pure _
  · exact (keeps_certId A).bind fun i => keeps_pure _
  all_goals exact keeps_ofExcept (.error _)

theorem keeps_alternateResources : Keeps location d (alternateResources A.recorded) :=
  fun c l s h => by
    obtain ⟨c', he, h'⟩ := h.alternateResources_eq A.recorded (l, s)
    rw [he]
    exact ⟨rfl, h'⟩

theorem keeps_hasRenewalInfo : Keeps location d (hasRenewalInfo A.recorded) :=
  (keeps_renewalLocation? A).bind fun _ => keeps_pure _

theorem fetchRenewalInfo_recorded (url : String) :
    fetchRenewalInfo A.recorded url = Action.onSecond (fetchRenewalInfo A url) := by
  unfold fetchRenewalInfo
  rw [RenewalInfo.fetch_recorded, ← Action.onSecond_mapError, Action.onSecond_bind]
  rfl

theorem keeps_renewalInfoAt (v : Option String) :
    Keeps location d (match v with
      | none => Action.fail (.unsupported renewalResource)
      | some url => do
        let i ← Action.onSecond (fetchRenewalInfo A.recorded url)
        Action.modifyFirst fun c => { c with renewalInfo? := some i }
        pure i : Action (CertificateResource × List Delivery × σ) RenewalInfo) := by
  cases v with
  | none => exact keeps_ofExcept (.error _)
  | some url =>
    simp only [fetchRenewalInfo_recorded]
    refine (keeps_onSecond _).bind fun i => Keeps.bind ?_ fun _ => keeps_pure _
    exact fun c l s h => ⟨rfl, { h with }⟩

theorem keeps_renewalInfo : Keeps location d (renewalInfo A.recorded) := by
  intro c l s h
  unfold renewalInfo
  rw [Action.get_bind]
  cases c.renewalInfo? with
  | some i => exact keeps_pure i c l s h
  | none => exact (keeps_renewalLocation? A).bind (keeps_renewalInfoAt A) c l s h

end Keeps

/-! ## What actions on a certificate do before it is known -/

/-- Nothing is known of the certificate at a location: an action asks for it, once. If it fails to
come, nothing is known of it still, and the action fails. -/
def Asks (location : String) (l : List Delivery) (s : σ)
    (x : Action (CertificateResource × List Delivery × σ) α) : Prop :=
  ∃ e t, e.url = location ∧
    ((e.download? = none ∧
        ∃ y, x (ofLocation location, (l, s)) = (.error y, (ofLocation location, (l ++ [e], t)))) ∨
      ∃ d r c, e.download? = some d ∧ Known location d c ∧
        x (ofLocation location, (l, s)) = (r, (c, (l ++ [e], t))))

section Asks

variable {l : List Delivery} {s : σ}

theorem Asks.bind (hx : Asks location l s x) (hf : ∀ d a, Keeps location d (f a)) :
    Asks location l s (x >>= f) := by
  obtain ⟨e, t, url, ⟨hd, y, hy⟩ | ⟨d, r, c, hd, known, hr⟩⟩ := hx
  · exact ⟨e, t, url, .inl ⟨hd, y, Action.bind_of_error hy⟩⟩
  cases r with
  | error y => exact ⟨e, t, url, .inr ⟨d, .error y, c, hd, known, Action.bind_of_error hr⟩⟩
  | ok a =>
    obtain ⟨same, known⟩ := hf d a c (l ++ [e]) t known
    rcases hr' : f a (c, (l ++ [e], t)) with ⟨r', c', l', t'⟩
    rw [hr'] at same known
    obtain rfl : l' = l ++ [e] := same
    exact ⟨e, t', url, .inr ⟨d, r', c', hd, known, (Action.bind_of_ok hr).trans hr'⟩⟩

theorem Asks.forget (hx : Asks location l s x) : Asks location l s x.forget := by
  rw [Action.forget_eq]
  exact hx.bind fun _ _ => keeps_pure ()

theorem Asks.loading (hx : Asks location l s x) :
    Asks location l s (CertificateResource.loading x) := by
  obtain ⟨e, t, url, ⟨hd, y, hy⟩ | ⟨d, r, c, hd, known, hr⟩⟩ := hx
  · exact ⟨e, t, url, .inl ⟨hd, _, by rw [loading_eq, hy]; rfl⟩⟩
  · exact ⟨e, t, url, .inr ⟨d, _, c, hd, known, by rw [loading_eq, hr]⟩⟩

variable (A : Authority σ)

theorem asks_download : Asks location l s (download A.recorded) := by
  obtain ⟨e, t, url, ⟨y, hd, hy⟩ | ⟨d, hd, full, hr⟩⟩ :=
    download_of_none (c := ofLocation location) A l s rfl
  · exact ⟨e, t, url, .inl ⟨hd, y, hy⟩⟩
  · refine ⟨e, t, url, .inr ⟨d, _, _, hd, ?_, hr⟩⟩
    exact ⟨rfl, rfl, full, nofun, nofun⟩

theorem asks_loaded : Asks location l s (loaded A.recorded) :=
  (asks_download A).loading

theorem asks_chain : Asks location l s (chain A.recorded) :=
  (asks_loaded A).bind fun _ _ => keeps_pure _

theorem asks_alternates : Asks location l s (alternates A.recorded) :=
  (asks_loaded A).bind fun _ _ => keeps_pure _

theorem asks_pem : Asks location l s (pem A.recorded) :=
  (asks_chain A).bind fun _ _ => keeps_ofExcept _

theorem asks_certificate : Asks location l s (certificate A.recorded) :=
  (asks_chain A).bind fun _ => keeps_first

theorem asks_revoke (reason : Value) : Asks location l s (revoke A.recorded reason) :=
  (asks_certificate A).bind fun _ c => keeps_revokeWith A c reason

theorem asks_of_keeps {k : Download → Action (CertificateResource × List Delivery × σ) α}
    (hk : ∀ d, Keeps location d (loaded A.recorded >>= k)) :
    Asks location l s (loaded A.recorded >>= k) := by
  rw [← loaded_bind_loaded]
  exact (asks_loaded A).bind fun d _ => hk d

theorem asks_alternateResources : Asks location l s (alternateResources A.recorded) := by
  have keeps : ∀ d, Keeps location d (alternateResources A.recorded) :=
    fun d => keeps_alternateResources A
  -- loading comes before the memo is looked at, and loading twice is loading once
  unfold alternateResources alternates at keeps ⊢
  rw [Action.bind_assoc] at keeps ⊢
  exact asks_of_keeps A keeps

theorem asks_certId : Asks location l s (certId A.recorded) := by
  have keeps : ∀ d, Keeps location d (computeCertId A.recorded) :=
    fun d => keeps_computeCertId A
  have asks : Asks location l s (computeCertId A.recorded) := by
    unfold computeCertId chain at keeps ⊢
    rw [Action.bind_assoc] at keeps ⊢
    exact asks_of_keeps A keeps
  rw [Asks, certId_of_none A.recorded _ rfl]
  exact asks

/-- The authority gives an address for renewal information. -/
def Located (A : Authority σ) (s : σ) : Prop :=
  ∃ base, (A.resourceUrl? renewalResource s).1 = .ok (.text base)

theorem located_eq (A : Authority σ) (location : String) (l : List Delivery) (s : σ) :
    loading (Action.onSecond (A.recorded.resourceUrl? renewalResource))
      (ofLocation location, (l, s)) =
      ((A.resourceUrl? renewalResource s).1.mapError (Error.asLoadFailure "Certificate" location),
        (ofLocation location, (l, (A.resourceUrl? renewalResource s).2))) := by
  rw [loading_eq]
  rfl

theorem asks_renewalLocation? (h : Located A s) :
    Asks location l s (renewalLocation? A.recorded) := by
  obtain ⟨base, hb⟩ := h
  have here := located_eq A location l s
  have asks : Asks location l (A.resourceUrl? renewalResource s).2
      (certId A.recorded >>= fun i => pure (some (addressIn base i))) :=
    (asks_certId A).bind fun _ _ => keeps_pure _
  rw [hb] at here
  unfold renewalLocation?
  rw [Asks, Action.bind_of_ok here]
  exact asks

theorem renewalLocation?_of_not_located (h : ¬ Located A s) :
    ∃ r t, renewalLocation? A.recorded (ofLocation location, (l, s)) =
      (r, (ofLocation location, (l, t))) ∧ ∀ url, r ≠ .ok (some url) := by
  have here := located_eq A location l s
  unfold Located at h
  cases hr : (A.resourceUrl? renewalResource s).1 with
  | error e =>
    rw [hr] at here
    exact ⟨_, _, Action.bind_of_error here, nofun⟩
  | ok v =>
    rw [hr] at here h
    cases v with
    | text base => exact absurd ⟨base, rfl⟩ h
    | _ => exact ⟨_, _, Action.bind_of_ok here, nofun⟩

theorem asks_hasRenewalInfo (h : Located A s) :
    Asks location l s (hasRenewalInfo A.recorded) :=
  (asks_renewalLocation? A h).bind fun _ _ => keeps_pure _

theorem asks_renewalInfo (h : Located A s) : Asks location l s (renewalInfo A.recorded) :=
  (asks_renewalLocation? A h).bind fun _ => keeps_renewalInfoAt A

end Asks

end CertificateResource

end AcmeClient
