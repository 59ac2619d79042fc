import AcmeClient.Proofs.CertificateResource.Operations

/-!
# Certificates are downloaded once

* `CertificateResource.Event`, `CertificateResource.run`: operations, whether they fail or not, with
  changes of the authority between them;
* `CertificateResource.Answers`: what a certificate answers from one download;
* `CertificateResource.Traced`: what is known is what the last request brought;
* **`CertificateResource.loaded_once`**: nothing is asked for after the first download, and all
  answers are from it.
-/

namespace AcmeClient

open Authority (Delivery)

namespace CertificateResource

variable {σ α β : Type} {location : String} {d : Download} {c : CertificateResource}

/-- A certificate is asked for something, or its authority changes. -/
inductive Event (σ : Type) where
  | ask (o : Operation)
  | change (f : σ → σ)

/-- What happens in an event. -/
def Event.act (A : Authority σ) : Event σ → Action (CertificateResource × σ) Unit
  | ask o => o.act A
  | change f => Action.modify fun p => (p.1, f p.2)

/-- The event where deliveries are written down. -/
def Event.recorded : Event σ → Event (List Delivery × σ)
  | ask o => .ask o
  | change f => .change fun p => (p.1, f p.2)

/-- One event after the other, whether operations fail or not. -/
def run (A : Authority σ) (events : List (Event σ)) (p : CertificateResource × σ) :
    CertificateResource × σ :=
  events.foldl (fun p v => (v.act A p).2) p

/-- The state without the record of deliveries. -/
def unrecorded (p : CertificateResource × List Delivery × σ) : CertificateResource × σ :=
  (p.1, p.2.2)

theorem run_recorded (A : Authority σ) (events : List (Event σ))
    (p : CertificateResource × List Delivery × σ) :
    unrecorded (run A.recorded (events.map .recorded) p) = run A events (unrecorded p) := by
  induction events generalizing p with
  | nil => rfl
  | cons v events ih =>
    have step : unrecorded (v.recorded.act A.recorded p).2 = (v.act A (unrecorded p)).2 := by
      cases v with
      | ask o => exact congrArg Prod.snd (o.simulates_act A.simulates_recorded p)
      | change f => rfl
    rw [List.map_cons, run, List.foldl_cons, ← run, ih, step]
    rfl

/-- What a certificate that was downloaded answers, whatever its authority does. -/
structure Answers (d : Download) (c : CertificateResource) : Prop where
  state : c.stateText = "loaded"
  stored : c.download? = some d
  download : ∀ {σ : Type} (A : Authority σ) s,
    CertificateResource.download A (c, s) = (.ok d, (c, s))
  chain : ∀ {σ : Type} (A : Authority σ) s,
    CertificateResource.chain A (c, s) = (.ok d.chain, (c, s))
  certificate : ∀ {σ : Type} (A : Authority σ) s, ∃ first ∈ d.chain.head?,
    CertificateResource.certificate A (c, s) = (.ok first, (c, s))
  pem : ∀ {σ : Type} (A : Authority σ) s,
    CertificateResource.pem A (c, s) = (pemText d.chain, (c, s))
  alternates : ∀ {σ : Type} (A : Authority σ) s,
    CertificateResource.alternates A (c, s) = (.ok d.alternates, (c, s))
  alternateResources : ∀ {σ : Type} (A : Authority σ) s, ∃ c',
    CertificateResource.alternateResources A (c, s) =
      (.ok (d.alternates.map ofLocation), (c', s))
  certId : ∀ {σ : Type} (A : Authority σ) s, ∃ c',
    CertificateResource.certId A (c, s) = (certIdOf d.chain, (c', s))
  /-- The identifier is that of the second certificate and the first serial number. -/
  identified : ∀ first issuer rest, d.chain = first :: issuer :: rest →
    certIdOf d.chain = CertId.text (.text "sha256") (.certificate issuer) (.int first.serial)
  /-- A certificate on its own has no issuer, and therefore no identifier. -/
  unissued : ∀ first, d.chain = [first] →
    certIdOf d.chain = .error (.plain .protocol "Certificate has no issuer")

theorem Known.answers (h : Known location d c) : Answers d c where
  state := by simp [stateText, isLoaded, h.stored]
  stored := h.stored
  download A s := download_of_some A s h.stored
  chain A s := h.chain_eq A s
  certificate A s := h.certificate_eq A s
  pem A s := h.pem_eq A s
  alternates A s := h.alternates_eq A s
  alternateResources A s := (h.alternateResources_eq A s).imp fun _ => And.left
  certId A s := (h.certId_eq A s).imp fun _ => And.left
  identified _ _ _ chain := by rw [chain]; rfl
  unissued _ chain := by rw [chain]; rfl

/-- All deliveries were asked for at the location, and none brought a chain. -/
def InVain (location : String) (l : List Delivery) : Prop :=
  ∀ e ∈ l, e.url = location ∧ e.download? = none

theorem InVain.concat {l : List Delivery} {e : Delivery} (h : InVain location l)
    (url : e.url = location) (hd : e.download? = none) : InVain location (l ++ [e]) := by
  intro e' he'
  rcases List.mem_append.mp he' with he' | he'
  · exact h e' he'
  · rw [List.mem_singleton.mp he']
    exact ⟨url, hd⟩

/-- What is known of the certificate at a location is what the last delivery brought, if it was not
in vain; all before it were. -/
inductive Traced (location : String) : CertificateResource → List Delivery → Prop
  | unloaded {l : List Delivery} (vain : InVain location l) :
      Traced location (ofLocation location) l
  | loaded {c : CertificateResource} {before : List Delivery} {e : Delivery} {d : Download}
      (vain : InVain location before) (url : e.url = location) (brought : e.download? = some d)
      (known : Known location d c) : Traced location c (before ++ [e])

section Run

variable (A : Authority σ) (v : Event σ) (events : List (Event σ)) (l : List Delivery) (s : σ)

theorem run_cons (p : CertificateResource × σ) :
    run A (v :: events) p = run A events (v.act A p).2 :=
  rfl

theorem Known.act (h : Known location d c) :
    (v.recorded.act A.recorded (c, (l, s))).2.2.1 = l ∧
      Known location d (v.recorded.act A.recorded (c, (l, s))).2.1 := by
  cases v with
  | ask o => exact o.keeps_act A c l s h
  | change f => exact ⟨rfl, h⟩

theorem Known.run (h : Known location d c) :
    (CertificateResource.run A.recorded (events.map .recorded) (c, (l, s))).2.1 = l ∧
      Known location d
        (CertificateResource.run A.recorded (events.map .recorded) (c, (l, s))).1 := by
  induction events generalizing c s with
  | nil => exact ⟨rfl, h⟩
  | cons v events ih =>
    have step := h.act A v l s
    rw [List.map_cons, run_cons]
    rcases hv : v.recorded.act A.recorded (c, (l, s)) with ⟨r, c', l', s'⟩
    rw [hv] at step
    obtain ⟨same, known⟩ := step
    obtain rfl : l' = l := same
    exact ih s' known

theorem Traced.act (h : Traced location c l) :
    Traced location (v.recorded.act A.recorded (c, (l, s))).2.1
      (v.recorded.act A.recorded (c, (l, s))).2.2.1 := by
  cases h with
  | @loaded _ before e d vain url brought known =>
    obtain ⟨same, known⟩ := known.act A v (before ++ [e]) s
    rw [same]
    exact .loaded vain url brought known
  | unloaded vain =>
    cases v with
    | change f => exact .unloaded vain
    | ask o =>
      have same : (Event.ask o).recorded.act A.recorded = o.act A.recorded := rfl
      rw [same]
      -- renewal information is left alone where the authority does not have it
      by_cases needs : o.Needs A s
      · have asks : Asks location l s (o.act A.recorded) := o.asks_act A needs
        obtain ⟨e, t, url, ⟨hd, y, hy⟩ | ⟨d, r, c, hd, known, hr⟩⟩ := asks
        · rw [hy]
          exact .unloaded (vain.concat url hd)
        · rw [hr]
          exact .loaded vain url hd known
      · obtain ⟨r, t, hr⟩ := o.act_of_not_needs A location l needs
        rw [hr]
        exact .unloaded vain

theorem Traced.run (h : Traced location c l) :
    Traced location (CertificateResource.run A.recorded (events.map .recorded) (c, (l, s))).1
      (CertificateResource.run A.recorded (events.map .recorded) (c, (l, s))).2.1 := by
  induction events generalizing c l s with
  | nil => exact h
  | cons v events ih => exact ih _ _ (h.act A v l s)

end Run

/-- **A certificate is downloaded once and never changes afterwards.** After any events, the
deliveries were all asked for at its location, and either all of them were in vain: then nothing is
known, an operation that needs the chain asks for it once more, and one that does not leaves all as
it is. Or the last delivery brought a chain, all before it were in vain, and nothing is asked for
ever again: the certificate answers from that delivery, whatever its authority does. -/
theorem loaded_once (A : Authority σ) (location : String) (events : List (Event σ)) (s : σ) :
    ∃ c l t, run A events (ofLocation location, s) = (c, t) ∧
      run A.recorded (events.map .recorded) (ofLocation location, ([], s)) = (c, (l, t)) ∧
      ((c = ofLocation location ∧ c.stateText = "unloaded" ∧ InVain location l ∧
          ∀ o : Operation, (o.Needs A t → Asks location l t (o.act A.recorded)) ∧
            (¬ o.Needs A t → ∃ r u, o.act A.recorded (c, (l, t)) = (r, (c, (l, u))))) ∨
        ∃ d before e, l = before ++ [e] ∧ InVain location before ∧ e.url = location ∧
          e.download? = some d ∧ d.chain ≠ [] ∧
          ∀ (B : Authority σ) (later : List (Event σ)) (u : σ),
            let p := run B.recorded (later.map .recorded) (c, (l, u))
            p.2.1 = l ∧ Answers d p.1) := by
  rcases hp : run A.recorded (events.map .recorded) (ofLocation location, ([], s)) with ⟨c, l, t⟩
  have plain : run A events (ofLocation location, s) = (c, t) := by
    have := run_recorded A events (ofLocation location, ([], s))
    rw [hp] at this
    exact this.symm
  have traced : Traced location c l := by
    have start : Traced location (ofLocation location) [] := .unloaded fun _ h => nomatch h
    have := Traced.run A events [] s start
    rw [hp] at this
    exact this
  refine ⟨c, l, t, plain, rfl, ?_⟩
  cases traced with
  | unloaded vain =>
    exact .inl ⟨rfl, rfl, vain, fun o => ⟨o.asks_act A, o.act_of_not_needs A location l⟩⟩
  | @loaded _ before e d vain url brought known =>
    refine .inr ⟨d, before, e, rfl, vain, url, brought, known.full, fun B later u => ?_⟩
    obtain ⟨same, known⟩ := known.run B later (before ++ [e]) u
    exact ⟨same, known.answers⟩

end CertificateResource

end AcmeClient
