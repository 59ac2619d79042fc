import AcmeClient.Proofs.CertificateResource.Stopping

/-!
# Failures to load a certificate

An operation on a certificate fails with the first fault of an access, or with what follows from
what was brought. Where the access was to load something, the error is wrapped in a failure to load,
once.

* `CertificateResource.Identifies`, `CertificateResource.Locates`, `CertificateResource.HandsOut`,
  `CertificateResource.Revokes`: what comes of accesses without fault;
* `CertificateResource.Operation.Settles`: what an operation ends with where no access has a fault;
* **`CertificateResource.Operation.tells_act`**: each operation stops at the first fault and reports
  it;
* **`CertificateResource.Sane.run`**: what is remembered follows from one download after every run;
* **`CertificateResource.failures_wrapped_once`**: after every run, failures to load are wrapped
  once.
-/

namespace AcmeClient

open Authority (Access)

namespace CertificateResource

variable {σ α : Type} {location : String} {c c' : CertificateResource} {l l' : List Access}

/-! ## What operations end with -/

/-- The error for an address that is no text. -/
def strange : Value → Error
  | .bytes _ => .plain .wrongType "address is no text"
  | _ => .plain .noOperation "address is no text"

/-- The identifier of a downloaded certificate; without its issuer there is none. -/
inductive Identifies (d : Download) : Except Error String → Prop
  | noIssuer (short : d.chain.length < 2) :
      Identifies d (.error (.plain .protocol "Certificate has no issuer"))
  | issued (long : 2 ≤ d.chain.length) : Identifies d (certIdOf d.chain)

theorem identifies_certIdOf (d : Download) : Identifies d (certIdOf d.chain) := by
  by_cases long : 2 ≤ d.chain.length
  · exact .issued long
  · rcases hc : d.chain with _ | ⟨first, _ | ⟨issuer, rest⟩⟩
    · exact .noIssuer (by simp [hc])
    · exact .noIssuer (by simp [hc])
    · exact absurd (by simp [hc]) long

theorem Identifies.eq_of_ok {d : Download} {i : String} (h : Identifies d (.ok i)) :
    certIdOf d.chain = .ok i := by
  generalize hr : Except.ok i = r at h
  cases h with
  | noIssuer => cases hr
  | issued => rfl

/-- The address of renewal information, if there is one, or why it is not known. -/
inductive Locates (c : CertificateResource) (l : List Access) : Except Error (Option String) → Prop
  | nowhere (h : .lookUp renewalResource (.ok .null) ∈ l) : Locates c l (.ok none)
  | there {base : String} {d : Download} {r : Except Error String}
      (h : .lookUp renewalResource (.ok (.text base)) ∈ l) (hd : d ∈ c.download?)
      (hr : Identifies d r) : Locates c l (r.map fun i => some (addressIn base i))
  | strange {v : Value} (h : .lookUp renewalResource (.ok v) ∈ l) (some : v ≠ .null)
      (odd : ∀ base, v ≠ .text base) : Locates c l (.error (strange v))

theorem Locates.placed {url : String} (h : Locates c l (.ok (some url)))
    (outcome : Except Error (Value × Headers)) (time : Int) :
    Placed location c l (.resource url outcome time) := by
  generalize hr : Except.ok (some url) = r at h
  cases h with
  | nowhere => cases hr
  | strange => cases hr
  | @there base d r h hd hi =>
    cases r with
    | error e => cases hr
    | ok i =>
      cases hr
      exact ⟨base, d, i, h, hd, hi.eq_of_ok, rfl⟩

theorem Locates.after {r : Except Error (Option String)} (h : Locates c l r)
    (after : After c l c' l') : Locates c' l' r := by
  cases h with
  | nowhere h => exact .nowhere (after.mem h)
  | there h hd hr => exact .there (after.mem h) (after.kept _ hd) hr
  | strange h some odd => exact .strange (after.mem h) some odd

theorem Locates.lookUp_of_none (h : Locates c l (.ok none)) :
    .lookUp renewalResource (.ok .null) ∈ l := by
  generalize hr : Except.ok none = r at h
  cases h with
  | nowhere h => exact h
  | strange => cases hr
  | @there base d r => cases r <;> cases hr

/-- What comes of asking for renewal information: it was handed out before, or it is fetched where
the authority has it. -/
inductive HandsOut (c c' : CertificateResource) (l : List Access) :
    Except Error RenewalInfo → Prop
  | again {i : RenewalInfo} (h : c.renewalInfo? = some i) : HandsOut c c' l (.ok i)
  | notOffered (h : .lookUp renewalResource (.ok .null) ∈ l) :
      HandsOut c c' l (.error (.unsupported renewalResource))
  | fetched {i : RenewalInfo} (h : Locates c' l (.ok (some i.location))) : HandsOut c c' l (.ok i)
  | astray {e : Error} (h : Locates c' l (.error e)) : HandsOut c c' l (.error e)

/-- What comes of a revocation after the certificate is there. -/
inductive Revokes (first : Certificate) (reason : Value) (l : List Access) :
    Except Error Unit → Prop
  | refused {e : Error} (h : Revocation.payload (.certificate first) reason = .error e) :
      Revokes first reason l (.error e)
  | notOffered (h : .lookUp Revocation.resource (.ok .null) ∈ l) :
      Revokes first reason l (.error (.unsupported Revocation.resource))
  | sent {url payload : Value} {r : Value × Headers} (h : .signed url payload none (.ok r) ∈ l) :
      Revokes first reason l (.ok ())

/-- What an operation ends with where no access has a fault. -/
inductive Operation.Settles (c c' : CertificateResource) (l : List Access) :
    Operation → Except Error Unit → Prop
  | loads {o : Operation} {d : Download}
      (h : o = download ∨ o = certificate ∨ o = chain ∨ o = alternates ∨ o = alternateResources)
      (hd : d ∈ c'.download?) : Settles c c' l o (.ok ())
  | pem {d : Download} (hd : d ∈ c'.download?) :
      Settles c c' l pem ((pemText d.chain).map fun _ => ())
  | certId {d : Download} {r : Except Error String} (hd : d ∈ c'.download?) (hr : Identifies d r) :
      Settles c c' l certId (r.map fun _ => ())
  | locates {o : Operation} {r : Except Error (Option String)}
      (h : o = renewalLocation? ∨ o = hasRenewalInfo) (hr : Locates c' l r) :
      Settles c c' l o (r.map fun _ => ())
  | handsOut {r : Except Error RenewalInfo} (hr : HandsOut c c' l r) :
      Settles c c' l renewalInfo (r.map fun _ => ())
  | revokes {d : Download} {first : Certificate} {reason : Value} {r : Except Error Unit}
      (hd : d ∈ c'.download?) (hf : first ∈ d.chain.head?) (hr : Revokes first reason l r) :
      Settles c c' l (revoke reason) r

theorem Identifies.unwrapped {d : Download} {r : Except Error String} (h : Identifies d r) :
    Unwrapped r := by
  cases h with
  | noIssuer => exact unwrapped_plain _ _
  | issued => exact unwrapped_certIdOf _

theorem Locates.unwrapped {r : Except Error (Option String)} (h : Locates c l r) :
    Unwrapped r := by
  cases h with
  | nowhere => exact unwrapped_ok _
  | there _ _ hr => exact hr.unwrapped.map _
  | @strange v => cases v <;> exact unwrapped_plain _ _

/-- **An operation settles without a failure to load a resource.** -/
theorem Operation.Settles.unwrapped {o : Operation} {r : Except Error Unit}
    (h : o.Settles c c' l r) : Unwrapped r := by
  cases h with
  | loads => exact unwrapped_ok ()
  | pem => exact (unwrapped_pemText _).map _
  | certId _ hr => exact hr.unwrapped.map _
  | locates _ hr => exact hr.unwrapped.map _
  | handsOut hr =>
    refine Unwrapped.map ?_ _
    cases hr with
    | again => exact unwrapped_ok _
    | fetched => exact unwrapped_ok _
    | notOffered => exact unwrapped_error rfl
    | astray h => exact unwrapped_error (h.unwrapped _ rfl)
  | revokes _ _ hr =>
    cases hr with
    | refused h => exact unwrapped_error (Revocation.unwrapped_payload _ _ _ h)
    | sent => exact unwrapped_ok ()
    | notOffered => exact unwrapped_error rfl

/-! ## Operations -/

section Tells

variable {A : Authority σ} (unwrapped : A.Unwrapped)
include unwrapped

theorem tells_renewalLocation? : Tells location (wrap location) Locates c l
    (renewalLocation? A.traced) := by
  have found : Tells location (wrap location)
      (Brings fun _ l' v => .lookUp renewalResource (.ok v) ∈ l') c l
      (loading (Action.onSecond (A.traced.resourceUrl? renewalResource))) :=
    tells_loading (tells_lookUp unwrapped renewalResource fun _ => rfl)
  refine found.next fun v c₁ l₁ _ _ hv => ?_
  cases v with
  | null => exact tells_of_const (fun _ => rfl) (.nowhere hv)
  | text base =>
    have located {c₂ l₂} (after : After c₁ l₁ c₂ l₂) {r}
        (q : ∃ d ∈ c₂.download?, r = certIdOf d.chain) :
        Locates c₂ l₂ (r.map fun i => some (addressIn base i)) := by
      obtain ⟨d, hd, rfl⟩ := q
      exact .there (after.mem hv) hd (identifies_certIdOf d)
    exact (tells_certId unwrapped).bind
      (fun i c₂ l₂ after _ q => tells_of_const (fun _ => rfl) (located after q))
      fun e c₂ l₂ after q => located after q
  | _ => exact tells_of_const (fun _ => rfl) (.strange hv nofun nofun)

theorem tells_fetchRenewalInfo {url : String} (h : Locates c l (.ok (some url))) :
    Tells location (wrap location) (Brings fun _ _ i => i.location = url) c l
      (Action.onSecond (fetchRenewalInfo A.traced url)) := by
  have fetched : Tells location (wrap location) (Brings fun _ _ _ => True) c l (Action.onSecond
      ((RenewalInfo.fetch A.traced url).mapError (Error.asLoadFailure "RenewalInfo" url))) := by
    refine tells_of_access fun sound s => ?_
    obtain ⟨outcome, time, r, t, gives, hr⟩ := RenewalInfo.fetch_traced unwrapped l s url
    refine ⟨[], .resource url outcome time, r, c, t, ?_, nofun, gives, sound.sane, fun _ hd => hd, ?_,
      fun v _ => ⟨v, rfl, trivial⟩⟩
    · refine Action.onSecond_of_eq ?_ c
      rw [Action.mapError_eq, hr, List.append_nil]
      rfl
    · rw [List.append_nil]
      exact h.placed outcome time
  unfold fetchRenewalInfo
  rw [Action.onSecond_bind]
  exact fetched.next fun r c₁ l₁ _ _ _ => tells_of_const (fun _ => rfl) ⟨_, rfl, rfl⟩

theorem tells_fetchFrom {v : Option String} (h : Locates c' l (.ok v)) :
    Tells location (wrap location) (HandsOut c) c' l (fetchFrom A.traced v) := by
  cases v with
  | none => exact tells_of_const (fun _ => rfl) (.notOffered h.lookUp_of_none)
  | some url =>
    refine (tells_fetchRenewalInfo unwrapped h).next fun i c₁ l₁ after _ place => ?_
    refine tells_of_eq { c₁ with renewalInfo? := some i } (fun _ => rfl)
      (fun h => ⟨h.place, h.full, h.certId⟩) (fun _ hd => hd) (.fetched ?_)
    rw [place]
    exact h.after ⟨after.grown, after.kept⟩

theorem tells_renewalInfo : Tells location (wrap location) (HandsOut c) c l
    (renewalInfo A.traced) := by
  cases hc : c.renewalInfo? with
  | some i => exact tells_of_const (fun s => renewalInfo_of_some A.traced (l, s) hc) (.again hc)
  | none =>
    have anew : Tells location (wrap location) (HandsOut c) c l
        (renewalLocation? A.traced >>= fetchFrom A.traced) :=
      (tells_renewalLocation? unwrapped).bind (fun v c₁ l₁ _ _ q => tells_fetchFrom unwrapped q)
        fun e c₁ l₁ _ q => .astray q
    intro sound clean s
    rw [renewalInfo_of_none A.traced (l, s) hc]
    exact anew sound clean s

theorem tells_revokeWith (first : Certificate) (reason : Value) :
    Tells location (wrap location) (fun _ l' r => Revokes first reason l' r) c l (Action.onSecond
      (Revocation.revokeWithAccount A.traced (.certificate first) reason)) := by
  have other : Revocation.resource ≠ renewalResource := by decide
  have plain : ∀ outcome, wrap location (.lookUp Revocation.resource outcome) = id := by
    intro outcome
    funext e
    simp only [wrap, loads?, if_neg other, id]
  unfold Revocation.revokeWithAccount Revocation.revoke
  simp only [Action.onSecond_bind]
  refine (tells_ofExcept _).bind (fun request c₁ l₁ _ _ _ => ?_) fun e c₁ l₁ _ q => .refused q.symm
  refine (tells_ofExcept _).bind (fun serial c₂ l₂ _ _ _ => ?_) fun e c₂ l₂ _ q => nomatch q
  refine (tells_say _).next fun _ c₃ l₃ _ _ _ => ?_
  refine (tells_resourceUrl unwrapped _ plain).bind (fun url c₄ l₄ _ _ _ => ?_) fun e c₄ l₄ _ q => ?_
  · refine (tells_sendSigned unwrapped url _ none fun _ => rfl).next fun v c₅ l₅ _ _ sent => ?_
    refine (tells_say _).imp fun c₆ l₆ r after q => ?_
    obtain ⟨v, rfl, -⟩ := q
    exact .sent (after.mem sent)
  · obtain ⟨v, same⟩ | ⟨null, same⟩ := q
    · cases same
    · cases same
      exact .notOffered null

theorem tells_revoke (reason : Value) : Tells location (wrap location)
    (fun c' l' r => Operation.Settles c c' l' (.revoke reason) r) c l (revoke A.traced reason) :=
  (tells_certificate unwrapped).next fun first _ _ _ _ ⟨_, hd, hf⟩ =>
    (tells_revokeWith unwrapped first reason).imp fun _ _ _ after q => .revokes (after.kept _ hd) hf q

omit unwrapped in
theorem Tells.loads {o : Operation} {P : Download → α → Prop}
    {x : Action (CertificateResource × List Access × σ) α}
    (hx : Tells location (o.report location) (Brings fun c' _ v => ∃ d ∈ c'.download?, P d v) c l x)
    (h : o = .download ∨ o = .certificate ∨ o = .chain ∨ o = .alternates ∨
      o = .alternateResources) :
    Tells location (o.report location) (fun c' l' r => o.Settles c c' l' r) c l x.forget := by
  refine hx.forget fun c₁ l₁ r q => ?_
  obtain ⟨v, rfl, d, hd, -⟩ := q
  exact .loads h hd

/-- **An operation stops at the first fault and reports it.** -/
theorem Operation.tells_act (o : Operation) : Tells location (o.report location)
    (fun c' l' r => o.Settles c c' l' r) c l (o.act A.traced) := by
  cases o with
  | download => exact (tells_download unwrapped).loads (by simp)
  | certificate => exact (tells_certificate unwrapped).loads (by simp)
  | chain => exact (tells_chain unwrapped).loads (by simp)
  | alternates => exact (tells_alternates unwrapped).loads (by simp)
  | alternateResources => exact (tells_alternateResources unwrapped).loads (by simp)
  | pem =>
    refine (tells_pem unwrapped).forget fun c₁ l₁ r q => ?_
    obtain ⟨d, hd, rfl⟩ := q
    exact .pem hd
  | certId =>
    refine (tells_certId unwrapped).forget fun c₁ l₁ r q => ?_
    obtain ⟨d, hd, rfl⟩ := q
    exact .certId hd (identifies_certIdOf d)
  | renewalLocation? =>
    exact (tells_renewalLocation? unwrapped).forget fun c₁ l₁ r h => .locates (.inl rfl) h
  | hasRenewalInfo =>
    have same : (hasRenewalInfo : Operation).act A.traced =
        (CertificateResource.renewalLocation? A.traced).forget := Action.forget_bind_pure _ _
    rw [same]
    exact (tells_renewalLocation? unwrapped).forget fun c₁ l₁ r h => .locates (.inr rfl) h
  | renewalInfo => exact (tells_renewalInfo unwrapped).forget fun c₁ l₁ r h => .handsOut h
  | revoke reason => exact tells_revoke unwrapped reason

end Tells

/-! ## Runs -/

section Run

variable {A : Authority σ} (unwrapped : A.Unwrapped)
include unwrapped

/-- What an operation does from a state that can be reached, next to what it does with an authority
that writes accesses down. -/
theorem Operation.act_cases (sane : Sane location c) (o : Operation) (s : σ) :
    ∃ r c' l t, o.act A.traced (c, ([], s)) = (r, (c', (l, t))) ∧ o.act A (c, s) = (r, (c', t)) ∧
      Sound location c' l ∧ (Faulty (o.report location) l r ∨ Clean l ∧ o.Settles c c' l r) := by
  obtain ⟨r, c', l, t, hr, -, sound, ends⟩ := o.tells_act unwrapped sane.sound clean_nil s
  refine ⟨r, c', l, t, hr, ?_, sound, ends⟩
  have same := o.simulates_act A.simulates_traced (c, ([], s))
  rw [hr] at same
  exact same.symm

/-- **After every event, what is remembered of the certificate follows from its download.** -/
theorem Sane.next (sane : Sane location c) (v : RenewalInfo.Event σ) (s : σ) :
    ∃ c' t, v.next A (.certificate c, s) = (.certificate c', t) ∧ Sane location c' := by
  cases v with
  | change f => exact ⟨c, f s, rfl, sane⟩
  | certificate o =>
    obtain ⟨r, c', l, t, -, hr, sound, -⟩ := o.act_cases unwrapped sane s
    refine ⟨c', t, ?_, sound.sane⟩
    simp only [RenewalInfo.Event.next, hr]
  | info o =>
    cases hc : c.renewalInfo? with
    | none =>
      refine ⟨c, s, ?_, sane⟩
      simp only [RenewalInfo.Event.next, RenewalInfo.Holder.info?, hc]
    | some i =>
      -- of the certificate, only its renewal information changes
      refine ⟨{ c with renewalInfo? := some (o.act A (i, s)).2.1 }, (o.act A (i, s)).2.2, ?_,
        sane.place, sane.full, sane.certId⟩
      simp only [RenewalInfo.Event.next, RenewalInfo.Holder.info?, hc, RenewalInfo.Holder.put]

theorem Sane.run (sane : Sane location c) (events : List (RenewalInfo.Event σ)) (s : σ) :
    ∃ c' t, RenewalInfo.run A events (.certificate c, s) = (.certificate c', t) ∧
      Sane location c' := by
  induction events generalizing c s with
  | nil => exact ⟨c, s, rfl, sane⟩
  | cons v events ih =>
    obtain ⟨c', t, hv, sane'⟩ := sane.next unwrapped v s
    obtain ⟨c'', u, hr, sane''⟩ := ih sane' t
    refine ⟨c'', u, ?_, sane''⟩
    rw [RenewalInfo.run, List.foldl_cons, hv]
    exact hr

/-- **Failures to load are wrapped once.** The authority fails with errors of any kind but failures
to load something. Then after any events, an operation on a certificate stops at the first access
with a fault and reports that: as a failure to load the certificate or its renewal information, if
that is what the access was for, with the error itself as its cause. A download on demand, and what
a revocation asks for once the certificate is there, fail with the error as it is. Where no access
has a fault, the operation settles, and its error is no failure to load anything. -/
theorem failures_wrapped_once (location : String) (events : List (RenewalInfo.Event σ)) (s : σ)
    (o : Operation) :
    ∃ c t, RenewalInfo.run A events ((RenewalInfo.Origin.certificate location).holder, s) =
        (.certificate c, t) ∧
      ∃ r c' l u, o.act A.traced (c, ([], t)) = (r, (c', (l, u))) ∧
        o.act A (c, t) = (r, (c', u)) ∧ (∀ a ∈ l, Placed location c' l a) ∧
        ((∃ before a e, l = before ++ [a] ∧ Clean before ∧ a.fault? = some e ∧
            e.isLoad = false ∧ r = .error (o.report location a e)) ∨
          Clean l ∧ o.Settles c c' l r ∧ ∀ e, r = .error e → e.isLoad = false) := by
  have start : Sane location (ofLocation location) := ⟨rfl, nofun, nofun⟩
  obtain ⟨c, t, ran, sane⟩ := start.run unwrapped events s
  obtain ⟨r, c', l, u, traced, plain, sound, ends⟩ := o.act_cases unwrapped sane t
  refine ⟨c, t, ran, r, c', l, u, traced, plain, sound.placed, ?_⟩
  exact ends.imp_right fun ⟨clean, settles⟩ => ⟨clean, settles, settles.unwrapped⟩

end Run

/-! ## An authority without certificates -/

/-- The answer of an authority that does not have what it is asked for. -/
def gone : Error :=
  .transport "not here" (.int 404) []

/-- An authority with a directory, and nothing else. -/
def lost : Authority Unit where
  now _ := 0
  note _ s := s
  resourceUrl? _ s := (.ok (.text "https://ca/renewal"), s)
  requestCertificate _ s := (.error gone, s)
  requestResource _ s := (.error gone, s)
  sendSigned _ _ _ s := (.error gone, s)

theorem unwrapped_lost : lost.Unwrapped where
  resourceUrl? _ _ := unwrapped_ok _
  requestCertificate _ _ := unwrapped_error rfl
  requestResource _ _ := unwrapped_error rfl
  sendSigned _ _ _ _ := unwrapped_error rfl

/-- Renewal information needs the address, the identifier and the chain: the error from the chain is
wrapped once. A download on demand fails with the error itself. -/
theorem failures_wrapped_once_lost :
    (∃ l u before a, Operation.renewalInfo.act lost.traced (ofLocation "https://ca/cert", ([], ())) =
        (.error (.load "Certificate" "https://ca/cert" gone),
          (ofLocation "https://ca/cert", (l, u))) ∧ l = before ++ [a] ∧ Clean before ∧
        a.fault? = some gone) ∧
      (Operation.download.act lost (ofLocation "https://ca/cert", ())).1 = .error gone := by
  obtain ⟨c, t, ran, r, c', l, u, traced, -, -, ends⟩ :=
    failures_wrapped_once unwrapped_lost "https://ca/cert" [] () .renewalInfo
  cases ran
  have asked : Operation.renewalInfo.act lost.traced (ofLocation "https://ca/cert", ([], ())) =
      (.error (.load "Certificate" "https://ca/cert" gone), (ofLocation "https://ca/cert",
        ([.lookUp renewalResource (.ok (.text "https://ca/renewal")),
          .note (announcement "https://ca/cert"),
          .certificate "https://ca/cert" (.error gone)], ()))) := rfl
  rw [asked] at traced
  cases traced
  refine ⟨?_, rfl⟩
  rcases ends with ⟨before, a, e, hl, clean, -⟩ | ⟨clean, -⟩
  · have last : a = .certificate "https://ca/cert" (.error gone) := by
      simpa using (congrArg List.getLast? hl).symm
    exact ⟨_, (), before, a, asked, hl, clean, by rw [last]; rfl⟩
  · cases clean (.certificate "https://ca/cert" (.error gone)) (by simp)

end CertificateResource

end AcmeClient
