import AcmeClient.Proofs.CertificateResource.Faults

/-!
# Actions that stop at a fault

An action on a certificate stops at the first access with a fault, and reports it. Where the access
was to load something, that is reported as a failure to load it.

* `CertificateResource.loads?`, `CertificateResource.wrap`: what an access loads, and how its fault
  is reported;
* `CertificateResource.Sound`: what is remembered of a certificate, and what was asked for;
* `CertificateResource.Tells`: an action stops at the first fault and reports it, and ends in a
  certain way if there is none;
* **`CertificateResource.Tells.bind`**: so do two such actions in a row;
* **`CertificateResource.tells_chain`**, **`CertificateResource.tells_certId`** and their like: what
  loading ends with.
-/

namespace AcmeClient

open Authority (Access)

namespace CertificateResource

variable {σ α β : Type} {location : String}

/-! ## Reports -/

/-- What an access to the authority is to load, and where that is. -/
def loads? (location : String) : Access → Option (String × String)
  | .certificate .. => some ("Certificate", location)
  | .lookUp name _ => if name = renewalResource then some ("Certificate", location) else none
  | .resource url .. => some ("RenewalInfo", url)
  | _ => none

/-- The error of an access as it is reported: one of the authority or of its data is wrapped in a
failure to load what the access was to load. -/
def wrap (location : String) (a : Access) (e : Error) : Error :=
  match loads? location a with
  | some (resource, place) => if e.isOwn then .load resource place e else e
  | none => e

/-- How an operation reports the error of an access. A download on demand reports it as it is. -/
def Operation.report (location : String) : Operation → Access → Error → Error
  | .download, _, e => e
  | _, a, e => wrap location a e

/-- None of the accesses has a fault. -/
def Clean (l : List Access) : Prop :=
  ∀ a ∈ l, a.fault? = none

/-- The last access is the first with a fault, and that is reported. -/
def Faulty (report : Access → Error → Error) (l : List Access) (r : Except Error α) : Prop :=
  ∃ before a e, l = before ++ [a] ∧ Clean before ∧ a.fault? = some e ∧ e.isLoad = false ∧
    r = .error (report a e)

/-! ## What is asked for -/

/-- What is remembered of the certificate follows from its download. -/
structure Sane (location : String) (c : CertificateResource) : Prop where
  place : c.location = location
  full : ∀ d ∈ c.download?, d.chain ≠ []
  certId : ∀ i ∈ c.certId?, ∃ d ∈ c.download?, certIdOf d.chain = .ok i

/-- Certificates are asked for at the location. Renewal information is asked for where the authority
has it for the downloaded certificate. -/
def Placed (location : String) (c : CertificateResource) (l : List Access) : Access → Prop
  | .certificate url _ => url = location
  | .resource url _ _ => ∃ base d i, .lookUp renewalResource (.ok (.text base)) ∈ l ∧
      d ∈ c.download? ∧ certIdOf d.chain = .ok i ∧ url = addressIn base i
  | _ => True

/-- A certificate after some accesses. -/
structure Sound (location : String) (c : CertificateResource) (l : List Access) : Prop where
  sane : Sane location c
  placed : ∀ a ∈ l, Placed location c l a

variable {c c₁ c' : CertificateResource} {l l₁ l' new : List Access} {a : Access}

/-- The accesses go on, and the download is kept. -/
structure After (c : CertificateResource) (l : List Access) (c' : CertificateResource)
    (l' : List Access) : Prop where
  grown : l <+: l'
  kept : ∀ d ∈ c.download?, d ∈ c'.download?

theorem After.trans (h : After c l c₁ l₁) (h' : After c₁ l₁ c' l') : After c l c' l' :=
  ⟨h.grown.trans h'.grown, fun d hd => h'.kept d (h.kept d hd)⟩

theorem After.mem (h : After c l c' l') (ha : a ∈ l) : a ∈ l' :=
  h.grown.subset ha

theorem Placed.after (h : Placed location c l a) (after : After c l c' l') :
    Placed location c' l' a := by
  cases a with
  | resource url outcome time =>
    obtain ⟨base, d, i, offered, hd, hi, hu⟩ := h
    exact ⟨base, d, i, after.mem offered, after.kept d hd, hi, hu⟩
  | _ => exact h

theorem Sound.add (h : Sound location c l) (after : After c l c' (l ++ new))
    (sane : Sane location c') (placed : ∀ a ∈ new, Placed location c' (l ++ new) a) :
    Sound location c' (l ++ new) := by
  refine ⟨sane, fun a ha => ?_⟩
  rcases List.mem_append.mp ha with ha | ha
  · exact (h.placed a ha).after after
  · exact placed a ha

theorem Sane.sound (h : Sane location c) : Sound location c [] :=
  ⟨h, fun _ ha => nomatch ha⟩

theorem clean_nil : Clean [] :=
  fun _ ha => nomatch ha

theorem Clean.concat (h : Clean l) (ha : a.fault? = none) : Clean (l ++ [a]) := by
  intro b hb
  rcases List.mem_append.mp hb with hb | hb
  · exact h b hb
  · rw [List.mem_singleton.mp hb]
    exact ha

/-! ## Actions that stop at the first fault -/

/-- After accesses without fault, an action stops at the first fault and reports it, or has none and
ends as `Q` says. -/
def Tells (location : String) (report : Access → Error → Error)
    (Q : CertificateResource → List Access → Except Error α → Prop) (c : CertificateResource)
    (l : List Access) (x : Action (CertificateResource × List Access × σ) α) : Prop :=
  Sound location c l → Clean l → ∀ s, ∃ r c' l' t, x (c, (l, s)) = (r, (c', (l', t))) ∧
    After c l c' l' ∧ Sound location c' l' ∧ (Faulty report l' r ∨ Clean l' ∧ Q c' l' r)

/-- An action succeeds, with a result of which `P` holds. -/
def Brings (P : CertificateResource → List Access → α → Prop) (c : CertificateResource)
    (l : List Access) (r : Except Error α) : Prop :=
  ∃ v, r = .ok v ∧ P c l v

variable {report : Access → Error → Error}
  {P : CertificateResource → List Access → α → Prop}
  {Q Q' : CertificateResource → List Access → Except Error α → Prop}
  {R : CertificateResource → List Access → Except Error β → Prop}
  {x : Action (CertificateResource × List Access × σ) α}
  {f : α → Action (CertificateResource × List Access × σ) β}

/-- **Two actions in a row stop at the first fault and report it.** -/
theorem Tells.bind (hx : Tells location report Q c l x)
    (ok : ∀ a c₁ l₁, After c l c₁ l₁ → Sound location c₁ l₁ → Q c₁ l₁ (.ok a) →
      Tells location report R c₁ l₁ (f a))
    (error : ∀ e c₁ l₁, After c l c₁ l₁ → Q c₁ l₁ (.error e) → R c₁ l₁ (.error e)) :
    Tells location report R c l (x >>= f) := by
  intro sound clean s
  obtain ⟨r, c₁, l₁, t, hr, after, sound, ⟨before, a, e, hl, clean, fault, load, rfl⟩ | ⟨clean, q⟩⟩ :=
    hx sound clean s
  -- a fault of the first action is the first of both, and the second one is not run
  · exact ⟨_, c₁, l₁, t, Action.bind_of_error hr, after, sound,
      .inl ⟨before, a, e, hl, clean, fault, load, rfl⟩⟩
  · cases r with
    | error e => exact ⟨_, c₁, l₁, t, Action.bind_of_error hr, after, sound,
        .inr ⟨clean, error e c₁ l₁ after q⟩⟩
    | ok a =>
      obtain ⟨r, c₂, l₂, u, hf, more, sound, ends⟩ := ok a c₁ l₁ after sound q sound clean t
      exact ⟨r, c₂, l₂, u, (Action.bind_of_ok hr).trans hf, after.trans more, sound, ends⟩

theorem Tells.next (hx : Tells location report (Brings P) c l x)
    (hf : ∀ a c₁ l₁, After c l c₁ l₁ → Sound location c₁ l₁ → P c₁ l₁ a →
      Tells location report R c₁ l₁ (f a)) : Tells location report R c l (x >>= f) := by
  refine hx.bind (fun a c₁ l₁ after sound q => ?_) fun e c₁ l₁ _ q => ?_
  · obtain ⟨v, same, hv⟩ := q
    cases same
    exact hf a c₁ l₁ after sound hv
  · obtain ⟨v, same, -⟩ := q
    cases same

theorem Tells.imp (hx : Tells location report Q c l x)
    (h : ∀ c₁ l₁ r, After c l c₁ l₁ → Q c₁ l₁ r → Q' c₁ l₁ r) :
    Tells location report Q' c l x := by
  intro sound clean s
  obtain ⟨r, c₁, l₁, t, hr, after, sound, faulty | ⟨clean, q⟩⟩ := hx sound clean s
  · exact ⟨r, c₁, l₁, t, hr, after, sound, .inl faulty⟩
  · exact ⟨r, c₁, l₁, t, hr, after, sound, .inr ⟨clean, h c₁ l₁ r after q⟩⟩

theorem tells_of_eq (c' : CertificateResource) {r : Except Error α}
    (h : ∀ s, x (c, (l, s)) = (r, (c', (l, s)))) (sane : Sane location c → Sane location c')
    (kept : ∀ d ∈ c.download?, d ∈ c'.download?) (q : Q c' l r) :
    Tells location report Q c l x := by
  intro sound clean s
  have after : After c l c' (l ++ []) := ⟨List.prefix_append l [], kept⟩
  have sound' := sound.add after (sane sound.sane) nofun
  rw [List.append_nil] at after sound'
  exact ⟨r, c', l, s, h s, after, sound', .inr ⟨clean, q⟩⟩

theorem tells_of_const {r : Except Error α} (h : ∀ s, x (c, (l, s)) = (r, (c, (l, s))))
    (q : Q c l r) : Tells location report Q c l x :=
  tells_of_eq c h id (fun _ hd => hd) q

theorem tells_ofExcept (r : Except Error α) :
    Tells location report (fun _ _ r' => r' = r) c l
      (Action.onSecond (Action.ofExcept r) : Action (CertificateResource × List Access × σ) α) :=
  tells_of_const (fun _ => rfl) rfl

theorem Tells.forget {R : CertificateResource → List Access → Except Error Unit → Prop}
    (hx : Tells location report Q c l x)
    (h : ∀ c₁ l₁ r, Q c₁ l₁ r → R c₁ l₁ (r.map fun _ => ())) :
    Tells location report R c l x.forget := by
  rw [Action.forget_eq]
  exact hx.bind (fun a c₁ l₁ _ _ q => tells_of_const (fun _ => rfl) (h _ _ _ q))
    fun e c₁ l₁ _ q => h _ _ _ q

/-- An action that ends as its last access does; before that, the user is told something. -/
theorem tells_of_access (h : Sound location c l → ∀ s, ∃ notes a r c' t,
      x (c, (l, s)) = (r.mapError (report a), (c', (l ++ notes ++ [a], t))) ∧
        (∀ b ∈ notes, ∃ e, b = .note e) ∧ a.Gives r ∧ Sane location c' ∧
        (∀ d ∈ c.download?, d ∈ c'.download?) ∧ Placed location c' (l ++ notes) a ∧
        ∀ v, r = .ok v → Q c' (l ++ notes ++ [a]) (.ok v)) : Tells location report Q c l x := by
  intro sound clean s
  obtain ⟨notes, a, r, c', t, hx, quiet, ⟨fault, load⟩, sane, kept, placed, q⟩ := h sound s
  have told : Clean (l ++ notes) := by
    intro b hb
    rcases List.mem_append.mp hb with hb | hb
    · exact clean b hb
    · obtain ⟨e, rfl⟩ := quiet b hb
      rfl
  have after : After c l c' (l ++ (notes ++ [a])) := ⟨List.prefix_append _ _, kept⟩
  have sound' : Sound location c' (l ++ (notes ++ [a])) := by
    refine sound.add after sane fun b hb => ?_
    rcases List.mem_append.mp hb with hb | hb
    · obtain ⟨e, rfl⟩ := quiet b hb
      trivial
    · rw [List.mem_singleton.mp hb, ← List.append_assoc]
      exact placed.after ⟨List.prefix_append _ _, fun _ hd => hd⟩
  rw [← List.append_assoc] at after sound'
  refine ⟨_, c', _, t, hx, after, sound', ?_⟩
  cases r with
  | error e => exact .inl ⟨l ++ notes, a, e, rfl, told, fault, load e rfl, rfl⟩
  | ok v => exact .inr ⟨told.concat fault, q v rfl⟩

/-! ## Loading -/

theorem Sane.keep {r : Except Error Download} (h : Sane location c) (hc : c.download? = none)
    (full : ∀ d, r = .ok d → d.chain ≠ []) : Sane location (c.keep r) := by
  cases r with
  | error e => exact h
  | ok d =>
    refine ⟨h.place, fun d' hd => ?_, fun i hi => ?_⟩
    · cases hd
      exact full d rfl
    · obtain ⟨d', hd, -⟩ := h.certId i hi
      rw [hc] at hd
      cases hd

theorem Sane.remember {d : Download} {i : String} (h : Sane location c) (hd : d ∈ c.download?)
    (hi : certIdOf d.chain = .ok i) : Sane location { c with certId? := some i } :=
  ⟨h.place, h.full, fun _ hj => ⟨d, hd, Option.some.inj hj ▸ hi⟩⟩

theorem tells_loading
    (h : Tells location report Q c l (x.mapError (Error.asLoadFailure "Certificate" location))) :
    Tells location report Q c l (loading x) := by
  intro sound clean s
  have same : loading x (c, (l, s)) =
      x.mapError (Error.asLoadFailure "Certificate" c.location) (c, (l, s)) := rfl
  rw [same, sound.sane.place]
  exact h sound clean s

section Loading

variable {A : Authority σ} (unwrapped : A.Unwrapped)
include unwrapped

theorem tells_mapped_download {g : Error → Error}
    (hg : ∀ outcome, report (.certificate location outcome) = g) :
    Tells location report (Brings fun c' _ d => d ∈ c'.download?) c l
      ((download A.traced).mapError g) := by
  cases hc : c.download? with
  | some d =>
    refine tells_of_const (r := .ok d) (fun s => ?_) ⟨d, rfl, hc⟩
    rw [Action.mapError_eq, download_of_some A.traced (l, s) hc]
    rfl
  | none =>
    refine tells_of_access fun sound s => ?_
    obtain ⟨outcome, r, t, gives, full, hr⟩ := download_traced unwrapped l s hc
    rw [sound.sane.place] at gives hr
    refine ⟨[.note (announcement location)], .certificate location outcome, r, c.keep r, t, ?_,
      fun b hb => ⟨_, List.mem_singleton.mp hb⟩, gives, sound.sane.keep hc full, ?_, rfl, ?_⟩
    · rw [Action.mapError_eq, hr, hg]
    · rw [hc]
      exact nofun
    · rintro d rfl
      exact ⟨d, rfl, rfl⟩

theorem tells_download : Tells location (Operation.report location .download)
    (Brings fun c' _ v => ∃ d ∈ c'.download?, d = v) c l (download A.traced) := by
  rw [← Action.mapError_id (download A.traced)]
  refine (tells_mapped_download unwrapped fun _ => rfl).imp fun c₁ l₁ r _ q => ?_
  obtain ⟨d, hr, hd⟩ := q
  exact ⟨d, hr, d, hd, rfl⟩

theorem tells_loaded : Tells location (wrap location)
    (Brings fun c' _ d => d ∈ c'.download?) c l (loaded A.traced) :=
  tells_loading (tells_mapped_download unwrapped fun _ => rfl)

theorem tells_chain : Tells location (wrap location)
    (Brings fun c' _ cs => ∃ d ∈ c'.download?, d.chain = cs) c l (chain A.traced) :=
  (tells_loaded unwrapped).next fun d _ _ _ _ hd => tells_of_const (fun _ => rfl) ⟨_, rfl, d, hd, rfl⟩

theorem tells_alternates : Tells location (wrap location)
    (Brings fun c' _ urls => ∃ d ∈ c'.download?, d.alternates = urls) c l (alternates A.traced) :=
  (tells_loaded unwrapped).next fun d _ _ _ _ hd => tells_of_const (fun _ => rfl) ⟨_, rfl, d, hd, rfl⟩

theorem tells_alternateResources : Tells location (wrap location)
    (Brings fun c' _ _ => ∃ d ∈ c'.download?, True) c l (alternateResources A.traced) := by
  refine (tells_alternates unwrapped).next fun urls c₁ l₁ _ _ ⟨d, hd, _⟩ => ?_
  cases hc : c₁.alternateResources? with
  | some rs =>
    refine tells_of_const (fun s => ?_) ⟨rs, rfl, d, hd, trivial⟩
    rw [Action.get_bind]
    simp only [hc]
    rfl
  | none =>
    refine tells_of_eq { c₁ with alternateResources? := some (urls.map ofLocation) }
      (fun s => ?_) (fun h => ⟨h.place, h.full, h.certId⟩) (fun _ hd => hd)
      ⟨urls.map ofLocation, rfl, d, hd, trivial⟩
    rw [Action.get_bind]
    simp only [hc]
    rfl

theorem tells_certificate : Tells location (wrap location)
    (Brings fun c' _ first => ∃ d ∈ c'.download?, first ∈ d.chain.head?) c l
    (certificate A.traced) := by
  refine (tells_chain unwrapped).next fun cs c₁ l₁ _ sound ⟨d, hd, same⟩ => ?_
  cases cs with
  | nil => exact absurd same (sound.sane.full d hd)
  | cons first rest => exact tells_of_const (fun _ => rfl) ⟨first, rfl, d, hd, by rw [same]; rfl⟩

theorem tells_pem : Tells location (wrap location)
    (fun c' _ r => ∃ d ∈ c'.download?, r = pemText d.chain) c l (pem A.traced) := by
  refine (tells_chain unwrapped).next fun cs c₁ l₁ _ _ ⟨d, hd, same⟩ => ?_
  exact tells_of_const (fun _ => rfl) ⟨d, hd, by rw [same]⟩

/-! ## The identifier and the address of renewal information -/

theorem tells_computeCertId : Tells location (wrap location)
    (fun c' _ r => ∃ d ∈ c'.download?, r = certIdOf d.chain) c l (computeCertId A.traced) := by
  refine (tells_chain unwrapped).next fun cs c₁ l₁ _ _ ⟨d, hd, same⟩ => ?_
  subst same
  cases hi : certIdOf d.chain with
  | error e => exact tells_of_const (fun _ => rfl) ⟨d, hd, hi.symm⟩
  | ok i =>
    exact tells_of_eq { c₁ with certId? := some i } (fun _ => rfl)
      (fun h => h.remember hd hi) (fun _ hd => hd) ⟨d, hd, hi.symm⟩

theorem tells_certId : Tells location (wrap location)
    (fun c' _ r => ∃ d ∈ c'.download?, r = certIdOf d.chain) c l (certId A.traced) := by
  cases hc : c.certId? with
  | some i =>
    intro sound
    obtain ⟨d, hd, hi⟩ := sound.sane.certId i hc
    refine tells_of_const (fun s => ?_) ⟨d, hd, hi.symm⟩ sound
    unfold certId
    rw [Action.get_bind]
    simp only [hc]
    rfl
  | none =>
    intro sound clean s
    rw [certId_of_none A.traced (l, s) hc]
    exact tells_computeCertId unwrapped sound clean s

/-- What is looked up in the directory, with the errors changed as they are reported. -/
theorem tells_lookUp {g : Error → Error} (name : String)
    (hg : ∀ outcome, report (.lookUp name outcome) = g) :
    Tells location report (Brings fun _ l' v => .lookUp name (.ok v) ∈ l') c l
      ((Action.onSecond (A.traced.resourceUrl? name)).mapError g) := by
  refine tells_of_access fun sound s => ?_
  rcases hr : A.resourceUrl? name s with ⟨r, t⟩
  have clear := unwrapped.resourceUrl? name s
  rw [hr] at clear
  refine ⟨[], .lookUp name r, r, c, t, ?_, nofun, ⟨rfl, clear⟩, sound.sane, fun _ hd => hd,
    trivial, ?_⟩
  · rw [Action.mapError_eq, Action.onSecond_of_eq (Authority.resourceUrl?_traced hr l), hg,
      List.append_nil]
  · rintro v rfl
    exact ⟨v, rfl, by simp⟩

/-! ## Other accesses -/

omit unwrapped in
theorem tells_say (e : Log.Entry) :
    Tells location report (Brings fun _ _ _ => True) c l (Action.onSecond (A.traced.say e)) := by
  refine tells_of_access fun sound s => ⟨[], .note e, .ok (), c, A.note e s, ?_, nofun,
    ⟨rfl, unwrapped_ok ()⟩, sound.sane, fun _ hd => hd, trivial, fun v _ => ⟨v, rfl, trivial⟩⟩
  rw [Action.onSecond_of_eq (Authority.say_traced A e l s), List.append_nil]
  rfl

theorem tells_resourceUrl (name : String) (hr : ∀ outcome, report (.lookUp name outcome) = id) :
    Tells location report
      (fun _ l' r => (∃ v, r = .ok v) ∨
        .lookUp name (.ok .null) ∈ l' ∧ r = .error (.unsupported name)) c l
      (Action.onSecond (A.traced.resourceUrl name)) := by
  have found : Tells location report _ c l _ := tells_lookUp unwrapped name hr
  rw [Action.mapError_id] at found
  unfold Authority.resourceUrl
  rw [Action.onSecond_bind]
  refine found.next fun v c₁ l₁ _ _ hv => ?_
  cases v with
  | null => exact tells_of_const (fun _ => rfl) (.inr ⟨hv, rfl⟩)
  | _ => exact tells_of_const (fun _ => rfl) (.inl ⟨_, rfl⟩)

theorem tells_sendSigned (url payload : Value) (key : Option PrivateKey)
    (hr : ∀ outcome, report (.signed url payload key outcome) = id) :
    Tells location report (Brings fun _ l' v => .signed url payload key (.ok v) ∈ l') c l
      (Action.onSecond (A.traced.sendSigned url payload key)) := by
  refine tells_of_access fun sound s => ?_
  rcases hs : A.sendSigned url payload key s with ⟨r, t⟩
  have clear := unwrapped.sendSigned url payload key s
  rw [hs] at clear
  refine ⟨[], .signed url payload key r, r, c, t, ?_, nofun, ⟨rfl, clear⟩, sound.sane,
    fun _ hd => hd, trivial, ?_⟩
  · rw [Action.onSecond_of_eq (Authority.sendSigned_traced hs l), hr, List.append_nil]
    cases r <;> rfl
  · rintro v rfl
    exact ⟨v, rfl, by simp⟩

end Loading

end CertificateResource

end AcmeClient
