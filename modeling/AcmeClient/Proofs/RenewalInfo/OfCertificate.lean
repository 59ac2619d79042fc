import Mathlib.Data.List.Induction
import AcmeClient.Proofs.CertificateResource.Operations
import AcmeClient.Proofs.RenewalInfo.Operations

/-!
# Renewal information of certificates

* `RenewalInfo.latest`, `RenewalInfo.IsLatest`: the record that the last of some accesses with a
  record brought;
* `CertificateResource.Leaves`: renewal information is left alone, and no record is brought;
* **`CertificateResource.Operation.leaves_act`**: so it is by all operations but the one that hands
  it out;
* **`CertificateResource.renewalInfo_cases`**: what is handed out has the record that was brought,
  and a failure leaves nothing behind.
-/

namespace AcmeClient

open Authority (Access)

namespace RenewalInfo

/-- The record that the last access with a record brought. -/
def latest (l : List Access) : Option Record :=
  (l.filterMap Access.record?).getLast?

variable {l new : List Access} {e : Access}

theorem latest_append : latest (l ++ new) = (latest new).or (latest l) := by
  rw [latest, List.filterMap_append, List.getLast?_append]
  rfl

theorem latest_singleton : latest [e] = e.record? := by
  cases h : e.record? <;> simp [latest, h]

theorem latest_eq_none (h : ∀ e ∈ l, e.record? = none) : latest l = none := by
  rw [latest, List.filterMap_eq_nil_iff.mpr h]
  rfl

theorem stands_of_latest {r : Record} (h : latest l = some r) :
    ∃ ms headers now, r.StandsIn ms headers now := by
  obtain ⟨e, -, he⟩ := List.mem_filterMap.mp (List.mem_of_getLast? h)
  obtain ⟨-, ms, headers, -, now, -, -, stands⟩ := Access.record?_eq_some_iff.mp he
  exact ⟨ms, headers, now, stands⟩

/-- A record is the one that the last access with a record brought, none if there was no such
access. -/
inductive IsLatest : List Access → Option Record → Prop
  | none {l : List Access} (vain : ∀ e ∈ l, ∀ r, ¬ e.Brings r) : IsLatest l none
  | some {before after : List Access} {e : Access} {r : Record} (brought : e.Brings r)
      (vain : ∀ e ∈ after, ∀ r, ¬ e.Brings r) : IsLatest (before ++ e :: after) (some r)

theorem IsLatest.concat {o : Option Record} (h : IsLatest l o) (he : ∀ r, ¬ e.Brings r) :
    IsLatest (l ++ [e]) o := by
  have more {l : List Access} (vain : ∀ d ∈ l, ∀ r, ¬ d.Brings r) :
      ∀ d ∈ l ++ [e], ∀ r, ¬ d.Brings r :=
    fun d hd => (List.mem_append.mp hd).elim (vain d) fun hd => List.mem_singleton.mp hd ▸ he
  cases h with
  | none vain => exact .none (more vain)
  | some brought vain =>
    rw [List.append_assoc, List.cons_append]
    exact .some brought (more vain)

theorem isLatest_latest (l : List Access) : IsLatest l (latest l) := by
  induction l using List.reverseRecOn with
  | nil => exact .none nofun
  | append_singleton l e ih =>
    rw [latest_append, latest_singleton]
    cases h : e.record? with
    | some r => exact .some (Access.record?_eq_some_iff.mp h) nofun
    | none => exact ih.concat (Access.record?_eq_none_iff.mp h)

end RenewalInfo

namespace CertificateResource

variable {σ α β : Type}

/-- Accesses are added, and none of them brings a record. -/
def Unread (p q : List Access × σ) : Prop :=
  ∃ new, q.1 = p.1 ++ new ∧ ∀ e ∈ new, e.record? = none

theorem Unread.refl (p : List Access × σ) : Unread p p :=
  ⟨[], (List.append_nil _).symm, nofun⟩

theorem Unread.trans {p q r : List Access × σ} (h : Unread p q) (h' : Unread q r) :
    Unread p r := by
  obtain ⟨new, hq, hn⟩ := h
  obtain ⟨new', hr, hn'⟩ := h'
  refine ⟨new ++ new', by rw [hr, hq, List.append_assoc], fun e he => ?_⟩
  rcases List.mem_append.mp he with he | he
  · exact hn e he
  · exact hn' e he

/-- Renewal information is left alone, and no record is brought. -/
def Leaves (p q : CertificateResource × List Access × σ) : Prop :=
  q.1.renewalInfo? = p.1.renewalInfo? ∧ Unread p.2 q.2

theorem Leaves.refl (p : CertificateResource × List Access × σ) : Leaves p p :=
  ⟨rfl, .refl p.2⟩

theorem Leaves.trans {p q r : CertificateResource × List Access × σ} (h : Leaves p q)
    (h' : Leaves q r) : Leaves p r :=
  ⟨h'.1.trans h.1, h.2.trans h'.2⟩

/-! ## Accesses without records -/

section Unread

variable (A : Authority σ) (p : List Access × σ)

theorem unread_of_access {access : Except Error α → σ → Access} (x : Action σ α)
    (h : ∀ r s, (access r s).record? = none) : Unread p (Authority.tracing access x p).2 :=
  ⟨_, rfl, fun e he => by rw [List.mem_singleton.mp he]; exact h _ _⟩

theorem unread_say (e : Log.Entry) : Unread p (A.traced.say e p).2 :=
  ⟨_, rfl, fun _ he => by rw [List.mem_singleton.mp he]; rfl⟩

theorem unread_resourceUrl? (name : String) : Unread p (A.traced.resourceUrl? name p).2 :=
  unread_of_access p _ fun _ _ => rfl

theorem unread_resourceUrl (name : String) : Unread p (A.traced.resourceUrl name p).2 := by
  refine Action.bind_rel Unread.trans (unread_resourceUrl? A p name) fun v q _ => ?_
  cases v <;> exact .refl _

theorem unread_fetch (location : String) : Unread p (fetch A.traced location p).2 := by
  refine Action.bind_rel Unread.trans (unread_say A p _) fun _ q _ => ?_
  refine Action.bind_rel Unread.trans (unread_of_access q _ fun _ _ => rfl) fun r q _ => ?_
  refine Action.bind_rel Unread.trans (.refl _) fun _ q _ => ?_
  exact Action.bind_rel Unread.trans (.refl _) fun _ q _ => .refl _

theorem unread_revoke (means : String) (key : Option PrivateKey) (c : Certificate.Given)
    (reason : Value) : Unread p (Revocation.revoke A.traced means key c reason p).2 := by
  refine Action.bind_rel Unread.trans (.refl _) fun _ q _ => ?_
  refine Action.bind_rel Unread.trans (.refl _) fun _ q _ => ?_
  refine Action.bind_rel Unread.trans (unread_say A q _) fun _ q _ => ?_
  refine Action.bind_rel Unread.trans (unread_resourceUrl A q _) fun _ q _ => ?_
  refine Action.bind_rel Unread.trans (unread_of_access q _ fun _ _ => rfl) fun _ q _ => ?_
  exact unread_say A q _

end Unread

/-! ## What leaves renewal information alone -/

section Leaves

variable (A : Authority σ) (p : CertificateResource × List Access × σ)

theorem leaves_onSecond {x : Action (List Access × σ) α} (h : Unread p.2 (x p.2).2) :
    Leaves p (Action.onSecond x p).2 :=
  ⟨rfl, h⟩

theorem leaves_loading {x : Action (CertificateResource × List Access × σ) α}
    (h : Leaves p (x p).2) : Leaves p (loading x p).2 := by
  rw [loading_eq]
  exact h

theorem leaves_download : Leaves p (download A.traced p).2 := by
  obtain ⟨c, q⟩ := p
  unfold download
  rw [Action.get_bind]
  dsimp only
  cases c.download? with
  | some d => exact .refl _
  | none =>
    refine Action.bind_rel Leaves.trans (leaves_onSecond _ (unread_fetch A q _)) fun _ q _ => ?_
    exact ⟨rfl, .refl _⟩

theorem leaves_loaded : Leaves p (loaded A.traced p).2 :=
  leaves_loading p (leaves_download A p)

theorem leaves_chain : Leaves p (chain A.traced p).2 :=
  Action.bind_rel Leaves.trans (leaves_loaded A p) fun _ _ _ => .refl _

theorem leaves_alternates : Leaves p (alternates A.traced p).2 :=
  Action.bind_rel Leaves.trans (leaves_loaded A p) fun _ _ _ => .refl _

theorem leaves_alternateResources : Leaves p (alternateResources A.traced p).2 := by
  refine Action.bind_rel Leaves.trans (leaves_alternates A p) fun urls q _ => ?_
  rw [Action.get_bind]
  cases q.1.alternateResources? with
  | some rs => exact .refl _
  | none => exact ⟨rfl, .refl _⟩

theorem leaves_certificate : Leaves p (certificate A.traced p).2 := by
  refine Action.bind_rel Leaves.trans (leaves_chain A p) fun cs q _ => ?_
  cases cs <;> exact .refl _

theorem leaves_pem : Leaves p (pem A.traced p).2 :=
  Action.bind_rel Leaves.trans (leaves_chain A p) fun _ _ _ => .refl _

theorem leaves_certId : Leaves p (certId A.traced p).2 := by
  unfold certId
  rw [Action.get_bind]
  cases p.1.certId? with
  | some i => exact .refl _
  | none =>
    refine Action.bind_rel Leaves.trans (leaves_chain A p) fun cs q _ => ?_
    refine Action.bind_rel Leaves.trans (.refl q) fun i q _ => ?_
    exact ⟨rfl, .refl _⟩

theorem leaves_renewalLocation? : Leaves p (renewalLocation? A.traced p).2 := by
  refine Action.bind_rel Leaves.trans (leaves_loading p (leaves_onSecond p
    (unread_resourceUrl? A p.2 renewalResource))) fun v q _ => ?_
  cases v with
  | text base => exact Action.bind_rel Leaves.trans (leaves_certId A q) fun _ _ _ => .refl _
  | _ => exact .refl _

theorem leaves_hasRenewalInfo : Leaves p (hasRenewalInfo A.traced p).2 :=
  Action.bind_rel Leaves.trans (leaves_renewalLocation? A p) fun _ _ _ => .refl _

theorem leaves_revoke (reason : Value) : Leaves p (revoke A.traced reason p).2 :=
  Action.bind_rel Leaves.trans (leaves_certificate A p) fun c q _ =>
    leaves_onSecond q (unread_revoke A q.2 _ none (.certificate c) reason)

/-- **All operations but one leave renewal information alone.** -/
theorem Operation.leaves_act (o : Operation) (h : o ≠ renewalInfo) :
    Leaves p (o.act A.traced p).2 := by
  cases o with
  | download => exact leaves_download A p
  | certificate => exact leaves_certificate A p
  | chain => exact leaves_chain A p
  | alternates => exact leaves_alternates A p
  | alternateResources => exact leaves_alternateResources A p
  | pem => exact leaves_pem A p
  | certId => exact leaves_certId A p
  | renewalLocation? => exact leaves_renewalLocation? A p
  | hasRenewalInfo => exact leaves_hasRenewalInfo A p
  | renewalInfo => exact absurd rfl h
  | revoke reason => exact leaves_revoke A p reason

end Leaves

/-! ## Handing it out -/

section Hand

variable (A : Authority σ) {c : CertificateResource}

theorem renewalInfo_of_some {i : RenewalInfo} (s : σ) (h : c.renewalInfo? = some i) :
    renewalInfo A (c, s) = (.ok i, (c, s)) := by
  unfold renewalInfo
  rw [Action.get_bind]
  simp only [h]
  rfl

/-- Renewal information is fetched from a location, and kept. -/
def fetchFrom : Option String → Action (CertificateResource × σ) RenewalInfo
  | none => Action.fail (.unsupported renewalResource)
  | some url => do
    let i ← Action.onSecond (fetchRenewalInfo A url)
    Action.modifyFirst fun c => { c with renewalInfo? := some i }
    pure i

theorem renewalInfo_of_none (s : σ) (h : c.renewalInfo? = none) :
    renewalInfo A (c, s) = (renewalLocation? A >>= fetchFrom A) (c, s) := by
  unfold renewalInfo
  rw [Action.get_bind]
  simp only [h]
  rfl

theorem fetchRenewalInfo_cases (url : String) (l : List Access) (s : σ) :
    ∃ e t, (∃ outcome time, e = .resource url outcome time) ∧
      ((e.record? = none ∧ ∃ x, fetchRenewalInfo A.traced url (l, s) = (.error x, (l ++ [e], t))) ∨
        ∃ r, e.record? = some r ∧
          fetchRenewalInfo A.traced url (l, s) = (.ok ⟨url, some r⟩, (l ++ [e], t))) := by
  obtain ⟨e, t, place, ⟨none, x, hx⟩ | ⟨r, some, hr⟩⟩ := RenewalInfo.fetch_cases A url l s
  · refine ⟨e, t, place, .inl ⟨none, x.asLoadFailure "RenewalInfo" url, Action.bind_of_error ?_⟩⟩
    rw [Action.mapError_eq, hx]
    rfl
  · refine ⟨e, t, place, .inr ⟨r, some, Action.bind_of_ok ?_⟩⟩
    rw [Action.mapError_eq, hr]
    rfl

/-- **Renewal information that is fetched has the record that was brought last; where that fails,
nothing is kept and no record was brought.** -/
theorem renewalInfo_cases (l : List Access) (s : σ) (h : c.renewalInfo? = none) :
    (∃ x q, renewalInfo A.traced (c, (l, s)) = (.error x, q) ∧ Leaves (c, (l, s)) q) ∨
    ∃ i r q, renewalInfo A.traced (c, (l, s)) = (.ok i, q) ∧ i.record? = some r ∧
      q.1.renewalInfo? = some i ∧
      ∃ new e outcome time, q.2.1 = l ++ new ++ [e] ∧ (∀ d ∈ new, d.record? = none) ∧
        e = .resource i.location outcome time ∧ e.record? = some r := by
  rw [renewalInfo_of_none A.traced (l, s) h]
  have leaves := leaves_renewalLocation? A (c, (l, s))
  rcases hr : renewalLocation? A.traced (c, (l, s)) with ⟨x | url?, c', l', s'⟩
  all_goals rw [hr] at leaves
  · rw [Action.bind_of_error hr]
    exact .inl ⟨x, _, rfl, leaves⟩
  rw [Action.bind_of_ok hr]
  obtain ⟨kept, new, hl, unread⟩ := leaves
  obtain rfl : l' = l ++ new := hl
  cases url? with
  | none => exact .inl ⟨_, _, rfl, kept, new, rfl, unread⟩
  | some url =>
  obtain ⟨e, t, ⟨outcome, time, place⟩, ⟨none, x, hx⟩ | ⟨r, some, hf⟩⟩ :=
    fetchRenewalInfo_cases A url (l ++ new) s'
  · refine .inl ⟨x, _, Action.bind_of_error (Action.onSecond_of_eq hx c'), kept, new ++ [e],
      List.append_assoc .., fun d hd => ?_⟩
    rcases List.mem_append.mp hd with hd | hd
    · exact unread d hd
    · rw [List.mem_singleton.mp hd]
      exact none
  · exact .inr ⟨⟨url, r⟩, r, _, Action.bind_of_ok (Action.onSecond_of_eq hf c'), rfl, rfl, new, e,
      outcome, time, rfl, unread, place, some⟩

end Hand

end CertificateResource

end AcmeClient
