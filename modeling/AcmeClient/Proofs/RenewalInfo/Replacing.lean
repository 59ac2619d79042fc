import AcmeClient.Proofs.RenewalInfo.OfCertificate

/-!
# Records are replaced as a whole

* `RenewalInfo.Holder`: renewal information on its own, or that of a certificate;
* `RenewalInfo.Event`, `RenewalInfo.run`: operations on both, whether they fail or not, with changes
  of the authority between them;
* `RenewalInfo.Whole`: the record is the one that was brought last;
* **`RenewalInfo.whole_run`**: so it is after every run;
* **`RenewalInfo.replaced_as_whole`**: and so it is replaced as a whole or not at all.
-/

namespace AcmeClient

open Authority (Access)

namespace RenewalInfo

variable {σ τ : Type}

/-- Renewal information on its own, or that of a certificate. -/
inductive Holder where
  | alone (i : RenewalInfo)
  | certificate (c : CertificateResource)

namespace Holder

/-- The renewal information, if it was handed out. -/
def info? : Holder → Option RenewalInfo
  | alone i => some i
  | certificate c => c.renewalInfo?

/-- The record, if there is one. -/
def record? (h : Holder) : Option Record :=
  h.info?.bind RenewalInfo.record?

/-- What the renewal information has become. -/
def put (i : RenewalInfo) : Holder → Holder
  | alone _ => alone i
  | certificate c => certificate { c with renewalInfo? := some i }

end Holder

/-- What is there at the start. -/
inductive Origin where
  | alone (location : String)
  | certificate (location : String)

/-- Nothing was fetched at the start. -/
def Origin.holder : Origin → Holder
  | alone location => .alone (ofLocation location)
  | certificate location => .certificate (.ofLocation location)

/-- Renewal information or its certificate is asked for something, or the authority changes. -/
inductive Event (σ : Type) where
  | info (o : Operation)
  | certificate (o : CertificateResource.Operation)
  | change (f : σ → σ)

/-- The state after an event. What was not handed out cannot be asked for anything. -/
def Event.next (A : Authority σ) : Event σ → Holder × σ → Holder × σ
  | info o, (h, s) =>
    match h.info? with
    | some i => (h.put (o.act A (i, s)).2.1, (o.act A (i, s)).2.2)
    | none => (h, s)
  | certificate o, (h, s) =>
    match h with
    | .certificate c => (.certificate (o.act A (c, s)).2.1, (o.act A (c, s)).2.2)
    | .alone i => (.alone i, s)
  | change f, (h, s) => (h, f s)

/-- The event where accesses are written down. -/
def Event.traced : Event σ → Event (List Access × σ)
  | info o => .info o
  | certificate o => .certificate o
  | change f => .change fun p => (p.1, f p.2)

/-- One event after the other, whether operations fail or not. -/
def run (A : Authority σ) (events : List (Event σ)) (p : Holder × σ) : Holder × σ :=
  events.foldl (fun p v => v.next A p) p

theorem next_traced (A : Authority σ) (v : Event σ) (p : Holder × List Access × σ) :
    Prod.map id Prod.snd (v.traced.next A.traced p) = v.next A (Prod.map id Prod.snd p) := by
  obtain ⟨h, q⟩ := p
  cases v with
  | change f => rfl
  | info o =>
    cases hi : h.info? with
    | none => simp only [Event.next, Event.traced, hi, Prod.map, id]
    | some i =>
      have same : (_, Prod.map id Prod.snd (o.act A.traced (i, q)).2) = o.act A (i, q.2) :=
        Operation.simulates_act A.simulates_traced o (i, q)
      simp only [Event.next, Event.traced, hi, Prod.map, id, ← same]
  | certificate o =>
    cases h with
    | alone i => rfl
    | certificate c =>
      have same : (_, Prod.map id Prod.snd (o.act A.traced (c, q)).2) = o.act A (c, q.2) :=
        CertificateResource.Operation.simulates_act o A.simulates_traced (c, q)
      simp only [Event.next, Event.traced, Prod.map, id, ← same]

theorem run_traced (A : Authority σ) (events : List (Event σ)) (p : Holder × List Access × σ) :
    Prod.map id Prod.snd (run A.traced (events.map .traced) p) =
      run A events (Prod.map id Prod.snd p) := by
  induction events generalizing p with
  | nil => rfl
  | cons v events ih =>
    rw [List.map_cons, run, List.foldl_cons, ← run, ih, next_traced]
    rfl

/-! ## Each event -/

section Step

variable (A : Authority σ) (l : List Access) (s : σ)

theorem Operation.record?_act (o : Operation) (i : RenewalInfo) :
    ∃ new, (o.act A.traced (i, (l, s))).2.2.1 = l ++ new ∧
      (o.act A.traced (i, (l, s))).2.1.record? = (latest new).or i.record? := by
  have updated : ∃ new, (RenewalInfo.update A.traced (i, (l, s))).2.2.1 = l ++ new ∧
      (RenewalInfo.update A.traced (i, (l, s))).2.1.record? = (latest new).or i.record? := by
    obtain ⟨e, t, -, ⟨none, x, hx⟩ | ⟨r, some, hr⟩⟩ := update_cases A i l s
    · exact ⟨[e], by rw [hx], by rw [hx, latest_singleton, none, Option.none_or]⟩
    · exact ⟨[e], by rw [hr], by rw [hr, latest_singleton, some, Option.some_or]⟩
  by_cases ho : o = update
  · rw [ho]
    exact updated
  have uses := uses_act A.traced ho
  cases hr : i.record? with
  | some r => exact ⟨[], by rw [uses.some (l, s) hr]; simp, by rw [uses.some (l, s) hr]; exact hr⟩
  | none =>
    obtain ⟨e, he⟩ | ⟨same, -⟩ := uses.none (l, s) hr
    · exact ⟨[], by rw [he]; simp, by rw [he]; exact hr⟩
    · rw [same, ← hr]
      exact updated

/-- The record is the one that was brought last; what a certificate has handed out has one. -/
structure Whole (h : Holder) (l : List Access) : Prop where
  latest : h.record? = latest l
  full : ∀ c, h = .certificate c → ∀ i ∈ c.renewalInfo?, i.record?.isSome

variable {h : Holder} {l}

theorem Whole.record?_eq (w : Whole h l) {i : RenewalInfo} (hi : h.info? = some i) :
    i.record? = RenewalInfo.latest l := by
  rw [← w.latest, Holder.record?, hi, Option.bind_some]

theorem Whole.put {i j : RenewalInfo} {new : List Access} (w : Whole h l) (hi : h.info? = some i)
    (hj : j.record? = (RenewalInfo.latest new).or i.record?) : Whole (h.put j) (l ++ new) where
  latest := by
    rw [latest_append, ← w.record?_eq hi, ← hj]
    cases h <;> rfl
  full c hc k hk := by
    cases h with
    | alone => cases hc
    | certificate c' =>
      cases hc
      cases hk
      rw [hj, Option.isSome_or, w.full c' rfl i hi, Bool.or_true]

variable {c : CertificateResource} {q : CertificateResource × List Access × σ}

theorem Whole.leaves (w : Whole (.certificate c) l)
    (leaves : CertificateResource.Leaves (c, (l, s)) q) : Whole (.certificate q.1) q.2.1 := by
  obtain ⟨kept, new, hl, unread⟩ := leaves
  change q.1.renewalInfo? = c.renewalInfo? at kept
  change q.2.1 = l ++ new at hl
  refine ⟨?_, fun c' hc i hi => ?_⟩
  · rw [hl, latest_append, latest_eq_none unread, Option.none_or, ← w.latest, Holder.record?,
      Holder.info?, kept]
    rfl
  · cases hc
    rw [kept] at hi
    exact w.full c rfl i hi

theorem Whole.renewalInfo (w : Whole (.certificate c) l) :
    Whole (.certificate (CertificateResource.renewalInfo A.traced (c, (l, s))).2.1)
      (CertificateResource.renewalInfo A.traced (c, (l, s))).2.2.1 := by
  cases hc : c.renewalInfo? with
  | some i =>
    rw [CertificateResource.renewalInfo_of_some A.traced (l, s) hc]
    exact w
  | none =>
    obtain ⟨x, q, hq, leaves⟩ | ⟨i, r, q, hq, hr, hi, new, e, outcome, time, hl, unread, place, he⟩ :=
      CertificateResource.renewalInfo_cases A l s hc
    · rw [hq]
      exact w.leaves s leaves
    · rw [hq]
      refine ⟨?_, fun c' hc' j hj => ?_⟩
      · rw [Holder.record?, Holder.info?, hi, Option.bind_some, hr, hl, latest_append,
          latest_singleton, he, Option.some_or]
      · cases hc'
        rw [hi] at hj
        cases hj
        rw [hr]
        rfl

/-- **Every event leaves the record that was brought last.** -/
theorem Whole.next (w : Whole h l) (v : Event σ) :
    Whole (v.traced.next A.traced (h, (l, s))).1 (v.traced.next A.traced (h, (l, s))).2.1 := by
  cases v with
  | change f => exact w
  | info o =>
    cases hi : h.info? with
    | none =>
      simp only [Event.next, Event.traced, hi]
      exact w
    | some i =>
      simp only [Event.next, Event.traced, hi]
      obtain ⟨new, hl, hr⟩ := o.record?_act A l s i
      rw [hl]
      exact w.put hi hr
  | certificate o =>
    cases h with
    | alone i => exact w
    | certificate c =>
      by_cases ho : o = .renewalInfo
      · rw [ho]
        exact w.renewalInfo A s
      · exact w.leaves s (CertificateResource.Operation.leaves_act A (c, (l, s)) o ho)

end Step

/-- **After every run the record is the one that was brought last.** -/
theorem whole_run (A : Authority σ) (origin : Origin) (events : List (Event σ)) (s : σ) :
    ∃ h l t, run A events (origin.holder, s) = (h, t) ∧
      run A.traced (events.map .traced) (origin.holder, ([], s)) = (h, (l, t)) ∧ Whole h l := by
  have start : Whole origin.holder [] := by
    cases origin with
    | alone location => exact ⟨rfl, nofun⟩
    | certificate location =>
      exact ⟨rfl, fun c hc i hi => by cases hc; cases hi⟩
  have after : ∀ (events : List (Event σ)) (h : Holder) (l : List Access) (s : σ), Whole h l →
      Whole (run A.traced (events.map .traced) (h, (l, s))).1
        (run A.traced (events.map .traced) (h, (l, s))).2.1 := by
    intro events
    induction events with
    | nil => exact fun h l s w => w
    | cons v events ih => exact fun h l s w => ih _ _ _ (w.next A s v)
  have plain := run_traced A events (origin.holder, ([], s))
  have whole := after events origin.holder [] s start
  rcases hp : run A.traced (events.map .traced) (origin.holder, ([], s)) with ⟨h, l, t⟩
  rw [hp] at plain whole
  exact ⟨h, l, t, plain.symm, rfl, whole⟩

/-! ## What happens next -/

/-- What renewal information with a record answers, whatever its authority does. -/
structure Answers (i : RenewalInfo) (r : Record) : Prop where
  start : ∀ {σ : Type} (A : Authority σ) s, RenewalInfo.start A (i, s) = (.ok r.start, (i, s))
  finish : ∀ {σ : Type} (A : Authority σ) s, RenewalInfo.finish A (i, s) = (.ok r.finish, (i, s))
  explanationUrl : ∀ {σ : Type} (A : Authority σ) s,
    RenewalInfo.explanationUrl A (i, s) = (.ok r.explanationUrl, (i, s))
  retryAfter : ∀ {σ : Type} (A : Authority σ) s,
    RenewalInfo.retryAfter A (i, s) = (.ok r.retryAfter, (i, s))

theorem answers_of_some {i : RenewalInfo} {r : Record} (h : i.record? = some r) :
    Answers i r where
  start A s := entry_of_some A s Record.start h
  finish A s := entry_of_some A s Record.finish h
  explanationUrl A s := entry_of_some A s Record.explanationUrl h
  retryAfter A s := entry_of_some A s Record.retryAfter h

/-- What an update of renewal information does, and what all other operations do. -/
structure Replaces (A : Authority σ) (i : RenewalInfo) (l : List Access) (s : σ) : Prop where
  /-- An update asks once. Where that brings no record it fails and all stays as it was, else the
  record is what was brought. -/
  update : ∃ e t, (∃ outcome time, e = .resource i.location outcome time) ∧
    (((∀ r, ¬ e.Brings r) ∧
        ∃ x, RenewalInfo.update A.traced (i, (l, s)) = (.error x, (i, (l ++ [e], t)))) ∨
      ∃ r, e.Brings r ∧ RenewalInfo.update A.traced (i, (l, s)) =
        (.ok r, ({ i with record? := some r }, (l ++ [e], t))))
  /-- A record answers for itself. -/
  told : ∀ r ∈ i.record?, Answers i r
  /-- While there is a record, no other operation changes it or asks for anything. -/
  kept : ∀ (o : Operation) (r : Record), o ≠ .update → i.record? = some r →
    ∀ {τ : Type} (B : Authority τ) (t : τ), (o.act B (i, t)).2 = (i, t)
  /-- Without a record, another operation leaves all as it was and fails, or it is an update, and
  fails where the update does. -/
  loaded : ∀ o : Operation, o ≠ .update → i.record? = none →
    (∃ x, o.act A.traced (i, (l, s)) = (.error x, (i, (l, s)))) ∨
      (o.act A.traced (i, (l, s))).2 = (RenewalInfo.update A.traced (i, (l, s))).2 ∧
        ∀ x p, RenewalInfo.update A.traced (i, (l, s)) = (.error x, p) →
          o.act A.traced (i, (l, s)) = (.error x, p)

theorem replaces (A : Authority σ) (i : RenewalInfo) (l : List Access) (s : σ) :
    Replaces A i l s where
  update := by
    obtain ⟨e, t, place, ⟨none, failed⟩ | ⟨r, some, stored⟩⟩ := update_cases A i l s
    · exact ⟨e, t, place, .inl ⟨Access.record?_eq_none_iff.mp none, failed⟩⟩
    · exact ⟨e, t, place, .inr ⟨r, Access.record?_eq_some_iff.mp some, stored⟩⟩
  told _ h := answers_of_some h
  kept _ _ ho hr _ B t := (Operation.uses_act B ho).some t hr
  loaded _ ho hr := (Operation.uses_act A.traced ho).none (l, s) hr

/-- What a certificate does that is asked for its renewal information. -/
structure HandsOut (A : Authority σ) (c : CertificateResource) (l : List Access) (s : σ) :
    Prop where
  /-- What was handed out before is handed out again. -/
  again : ∀ i ∈ c.renewalInfo?,
    CertificateResource.renewalInfo A.traced (c, (l, s)) = (.ok i, (c, (l, s)))
  /-- What is handed out has a record, and is kept. -/
  full : ∀ i p, CertificateResource.renewalInfo A.traced (c, (l, s)) = (.ok i, p) →
    i.record?.isSome ∧ p.1.renewalInfo? = some i
  /-- A failure leaves nothing behind. -/
  failed : ∀ x p, CertificateResource.renewalInfo A.traced (c, (l, s)) = (.error x, p) →
    c.renewalInfo? = none ∧ p.1.renewalInfo? = none

theorem Whole.handsOut (A : Authority σ) {c : CertificateResource} {l : List Access}
    (w : Whole (.certificate c) l) (s : σ) : HandsOut A c l s := by
  have again : ∀ i ∈ c.renewalInfo?,
      CertificateResource.renewalInfo A.traced (c, (l, s)) = (.ok i, (c, (l, s))) :=
    fun i hi => CertificateResource.renewalInfo_of_some A.traced (l, s) hi
  cases hc : c.renewalInfo? with
  | some i =>
    refine ⟨again, fun j p hp => ?_, fun x p hp => ?_⟩
    · rw [again i hc] at hp
      cases hp
      exact ⟨w.full c rfl i hc, hc⟩
    · rw [again i hc] at hp
      cases hp
  | none =>
    obtain ⟨x, q, hq, kept, -⟩ | ⟨i, r, q, hq, hr, hi, -⟩ :=
      CertificateResource.renewalInfo_cases A l s hc
    · refine ⟨again, fun j p hp => ?_, fun y p hp => ?_⟩
      · rw [hq] at hp
        cases hp
      · rw [hq] at hp
        cases hp
        exact ⟨hc, kept.trans hc⟩
    · refine ⟨again, fun j p hp => ?_, fun y p hp => ?_⟩
      · rw [hq] at hp
        cases hp
        exact ⟨by rw [hr]; rfl, hi⟩
      · rw [hq] at hp
        cases hp

/-- **Records are replaced as a whole or not at all.** After any events, the record is the one of
the last access that brought one: its window, its explanation and the time to ask again stand in the
document and the headers of that access. The window does not end before it starts, and both ends are
on the UTC clock. An update replaces the record or fails and leaves it as it was, all other
operations leave it alone and ask only while there is none. A certificate hands out renewal
information with a record, and remembers nothing if it cannot. -/
theorem replaced_as_whole (A : Authority σ) (origin : Origin) (events : List (Event σ)) (s : σ) :
    ∃ h l t, run A events (origin.holder, s) = (h, t) ∧
      run A.traced (events.map .traced) (origin.holder, ([], s)) = (h, (l, t)) ∧
      IsLatest l h.record? ∧ (∀ r ∈ h.record?, r.Sound) ∧
      (∀ i ∈ h.info?, Replaces A i l t) ∧
      ∀ c, h = .certificate c → (∀ i ∈ c.renewalInfo?, i.record?.isSome) ∧ HandsOut A c l t := by
  obtain ⟨h, l, t, plain, traced, w⟩ := whole_run A origin events s
  refine ⟨h, l, t, plain, traced, ?_, fun r hr => ?_, fun i _ => replaces A i l t, ?_⟩
  · rw [w.latest]
    exact isLatest_latest l
  · obtain ⟨ms, headers, now, stands⟩ := stands_of_latest (w.latest.symm.trans hr)
    exact stands.sound
  · rintro c rfl
    exact ⟨w.full c rfl, w.handsOut A t⟩

end RenewalInfo

end AcmeClient
