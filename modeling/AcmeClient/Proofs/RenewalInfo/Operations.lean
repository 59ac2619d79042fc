import AcmeClient.Proofs.RenewalInfo.Record
import AcmeClient.Proofs.Tracing

/-!
# Operations on renewal information

* `Authority.Access.record?`: the record that an access brings;
* `Authority.Access.Brings`, **`Authority.Access.record?_eq_some_iff`**: it says what stands in the
  response;
* `RenewalInfo.Operation`, `RenewalInfo.Operation.act`: what renewal information can be asked for;
* **`RenewalInfo.update_cases`**: an update asks once, and keeps what that brings or fails and keeps
  what there was;
* **`RenewalInfo.Operation.uses_act`**: all else uses the record if there is one, and is an update
  if there is none;
* `RenewalInfo.Operation.simulates_act`: an operation does the same with an authority that keeps
  books.
-/

namespace AcmeClient

open Authority (Access)

/-- The record that an access brings. -/
def Authority.Access.record? : Access → Option RenewalInfo.Record
  | resource url (.ok (document, headers)) time =>
    (DateTime.ofEpoch? time).bind fun now =>
      (RenewalInfo.Record.read url document headers now).toOption
  | _ => none

/-- What a record says stands in the response that an access got, at the time of its arrival. -/
def Authority.Access.Brings (e : Access) (r : RenewalInfo.Record) : Prop :=
  ∃ (url : String) (ms : Members) (headers : Headers) (time : Int) (now : DateTime),
    e = .resource url (.ok (.object ms, headers)) time ∧ DateTime.ofEpoch? time = some now ∧
      r.StandsIn ms headers now

/-- **The record that an access brings says what stands in the response.** -/
theorem Authority.Access.record?_eq_some_iff {e : Access} {r : RenewalInfo.Record} :
    e.record? = some r ↔ e.Brings r := by
  constructor
  · intro h
    cases e with
    | resource url outcome time =>
      cases outcome with
      | error x => cases h
      | ok answer =>
        obtain ⟨document, headers⟩ := answer
        obtain ⟨now, arrived, h⟩ := Option.bind_eq_some_iff.mp h
        obtain ⟨ms, rfl, stands⟩ :=
          RenewalInfo.Record.read_eq_ok_iff.mp (Action.toOption_eq_some_iff.mp h)
        exact ⟨url, ms, headers, time, now, rfl, arrived, stands⟩
    | _ => cases h
  · rintro ⟨url, ms, headers, time, now, rfl, arrived, stands⟩
    refine Option.bind_eq_some_iff.mpr ⟨now, arrived, ?_⟩
    exact Action.toOption_eq_some_iff.mpr
      (RenewalInfo.Record.read_eq_ok_iff.mpr ⟨ms, rfl, stands⟩)

theorem Authority.Access.record?_eq_none_iff {e : Access} :
    e.record? = none ↔ ∀ r, ¬ e.Brings r := by
  rw [Option.eq_none_iff_forall_ne_some]
  exact forall_congr' fun r => not_congr record?_eq_some_iff

namespace RenewalInfo

/-- The record in a response that arrives from a location at some time. -/
def Record.ofResponse (location : String) (time : Int) (p : Value × Headers) :
    Except Error Record :=
  match DateTime.ofEpoch? time with
  | some now => read location p.1 p.2 now
  | none => .error (.plain .outOfRange "time out of range")

theorem record?_resource (url : String) (outcome : Except Error (Value × Headers)) (time : Int) :
    (Access.resource url outcome time).record? =
      (outcome.bind (Record.ofResponse url time)).toOption := by
  cases outcome with
  | error x => rfl
  | ok answer =>
    simp only [Access.record?, Except.bind, Record.ofResponse]
    cases DateTime.ofEpoch? time <;> rfl

variable {σ τ α : Type}

/-- What renewal information can be asked for. -/
inductive Operation where
  | update
  | start
  | finish
  | explanationUrl
  | retryAfter
  | isNotRequired (time : Option DateTime)
  | isRecommended (time : Option DateTime)
  | isOverdue (time : Option DateTime)
  | proposal (frequency : Option Int) (now : Option DateTime) (fraction : Binary64)

/-- An operation, without its result. -/
def Operation.act (A : Authority σ) : Operation → Action (RenewalInfo × σ) Unit
  | update => (RenewalInfo.update A).forget
  | start => (RenewalInfo.start A).forget
  | finish => (RenewalInfo.finish A).forget
  | explanationUrl => (RenewalInfo.explanationUrl A).forget
  | retryAfter => (RenewalInfo.retryAfter A).forget
  | isNotRequired time => (RenewalInfo.isNotRequired A time).forget
  | isRecommended time => (RenewalInfo.isRecommended A time).forget
  | isOverdue time => (RenewalInfo.isOverdue A time).forget
  | proposal frequency now fraction => (RenewalInfo.proposal A frequency now fraction).forget

section Update

variable (A : Authority σ)

theorem clock_cases (s : σ) :
    (∃ t, DateTime.ofEpoch? (A.now s) = some t ∧ A.clock s = (.ok t, s)) ∨
    ∃ e, DateTime.ofEpoch? (A.now s) = none ∧ A.clock s = (.error e, s) := by
  unfold Authority.clock
  rw [Action.get_bind]
  cases DateTime.ofEpoch? (A.now s) with
  | some t => exact .inl ⟨t, rfl, rfl⟩
  | none => exact .inr ⟨_, rfl, rfl⟩

theorem fetch_eq (location : String) (s : σ) :
    fetch A location s =
      ((A.requestResource location s).1.bind
          (Record.ofResponse location (A.now (A.requestResource location s).2)),
        (A.requestResource location s).2) := by
  unfold fetch
  rcases h : A.requestResource location s with ⟨e | p, t⟩
  · rw [Action.bind_of_error h]
    rfl
  · rw [Action.bind_of_ok h]
    simp only [Except.bind, Record.ofResponse]
    unfold Authority.clock
    rw [Action.bind_assoc, Action.get_bind]
    cases DateTime.ofEpoch? (A.now t) <;> rfl

theorem fetch_cases (location : String) (l : List Access) (s : σ) :
    ∃ e t, (∃ outcome time, e = .resource location outcome time) ∧
      ((e.record? = none ∧ ∃ x, fetch A.traced location (l, s) = (.error x, (l ++ [e], t))) ∨
        ∃ r, e.record? = some r ∧ fetch A.traced location (l, s) = (.ok r, (l ++ [e], t))) := by
  rcases hr : A.requestResource location s with ⟨outcome, t⟩
  have fetched : fetch A.traced location (l, s) =
      (outcome.bind (Record.ofResponse location (A.now t)),
        (l ++ [.resource location outcome (A.now t)], t)) := by
    have same : A.traced.requestResource location (l, s) =
        (outcome, (l ++ [.resource location outcome (A.now t)], t)) := by
      change (_, _) = _
      rw [hr]
    rw [fetch_eq, same]
    rfl
  refine ⟨.resource location outcome (A.now t), t, ⟨_, _, rfl⟩, ?_⟩
  rw [record?_resource, fetched]
  cases outcome.bind (Record.ofResponse location (A.now t)) with
  | error x => exact .inl ⟨rfl, x, rfl⟩
  | ok r => exact .inr ⟨r, rfl, rfl⟩

theorem update_of_ok {i : RenewalInfo} {r : Record} {s t : σ}
    (h : fetch A i.location s = (.ok r, t)) :
    update A (i, s) = (.ok r, ({ i with record? := some r }, t)) := by
  unfold update
  rw [Action.get_bind]
  exact Action.bind_of_ok (Action.onSecond_of_eq h i)

theorem update_of_error {i : RenewalInfo} {e : Error} {s t : σ}
    (h : fetch A i.location s = (.error e, t)) : update A (i, s) = (.error e, (i, t)) := by
  unfold update
  rw [Action.get_bind]
  exact Action.bind_of_error (Action.onSecond_of_eq h i)

/-- **An update asks once, and keeps what that brings or fails and keeps what there was.** -/
theorem update_cases (i : RenewalInfo) (l : List Access) (s : σ) :
    ∃ e t, (∃ outcome time, e = .resource i.location outcome time) ∧
      ((e.record? = none ∧ ∃ x, update A.traced (i, (l, s)) = (.error x, (i, (l ++ [e], t)))) ∨
        ∃ r, e.record? = some r ∧
          update A.traced (i, (l, s)) = (.ok r, ({ i with record? := some r }, (l ++ [e], t)))) := by
  obtain ⟨e, t, url, ⟨none, x, hx⟩ | ⟨r, some, hr⟩⟩ := fetch_cases A i.location l s
  · exact ⟨e, t, url, .inl ⟨none, x, update_of_error A.traced hx⟩⟩
  · exact ⟨e, t, url, .inr ⟨r, some, update_of_ok A.traced hr⟩⟩

end Update

/-! ## What uses the record -/

section Use

variable (A : Authority σ) {i : RenewalInfo} {r : Record} (s : σ)

theorem record_of_some (h : i.record? = some r) : record A (i, s) = (.ok r, (i, s)) := by
  unfold record
  rw [Action.get_bind]
  simp only [h]
  rfl

theorem record_of_none (h : i.record? = none) : record A (i, s) = update A (i, s) := by
  unfold record
  rw [Action.get_bind]
  simp only [h]

theorem entry_of_some (f : Record → α) (h : i.record? = some r) :
    entry A f (i, s) = (.ok (f r), (i, s)) :=
  Action.bind_of_ok (record_of_some A s h)

theorem utc_of_toUtc? {t u : DateTime} (h : t.toUtc? = some u) :
    utc A (some t) s = (.ok u, s) := by
  simp only [utc, h]
  rfl

theorem utc_cases (time : Option DateTime) :
    (∃ t, utc A time s = (.ok t, s)) ∨ ∃ e, utc A time s = (.error e, s) := by
  cases time with
  | none =>
    rcases clock_cases A s with ⟨t, -, h⟩ | ⟨e, -, h⟩
    · exact .inl ⟨t, h⟩
    · exact .inr ⟨e, h⟩
  | some t =>
    cases hu : t.toUtc? with
    | some u => exact .inl ⟨u, utc_of_toUtc? A s hu⟩
    | none =>
      refine .inr ⟨.plain .outOfRange "instant out of range", ?_⟩
      simp only [utc, hu]
      rfl

/-- An action that looks at the record only, after something that leaves the state alone. -/
structure Uses (A : Authority σ) (x : Action (RenewalInfo × σ) α) : Prop where
  /-- The record is used if there is one. -/
  some : ∀ {i : RenewalInfo} {r : Record} (s : σ), i.record? = some r →
    (x (i, s)).2 = (i, s)
  /-- It is fetched if there is none, or the action fails before that. -/
  none : ∀ {i : RenewalInfo} (s : σ), i.record? = none →
    (∃ e, x (i, s) = (.error e, (i, s))) ∨
      (x (i, s)).2 = (update A (i, s)).2 ∧ ∀ e t, update A (i, s) = (.error e, t) →
        x (i, s) = (.error e, t)

theorem uses_record (f : Record → Except Error α) :
    Uses A (record A >>= fun r => Action.ofExcept (f r)) where
  some s h := by rw [Action.bind_of_ok (record_of_some A s h)]; rfl
  none s h := by
    refine .inr ?_
    rcases hu : update A (_, s) with ⟨e | r, t⟩
    · have failed := Action.bind_of_error (f := fun r => Action.ofExcept (f r))
        ((record_of_none A s h).trans hu)
      rw [failed]
      refine ⟨rfl, fun e' t' he => ?_⟩
      cases he
      rfl
    · rw [Action.bind_of_ok ((record_of_none A s h).trans hu)]
      exact ⟨rfl, nofun⟩

theorem uses_utc (time : Option DateTime) {f : DateTime → Action (RenewalInfo × σ) α}
    (h : ∀ t, Uses A (f t)) : Uses A (Action.onSecond (utc A time) >>= f) := by
  have here (i : RenewalInfo) (s : σ) :
      (∃ t, (Action.onSecond (utc A time) >>= f) (i, s) = f t (i, s)) ∨
        ∃ e, (Action.onSecond (utc A time) >>= f) (i, s) = (.error e, (i, s)) := by
    rcases utc_cases A s time with ⟨t, ht⟩ | ⟨e, he⟩
    · exact .inl ⟨t, Action.bind_of_ok (Action.onSecond_of_eq ht i)⟩
    · exact .inr ⟨e, Action.bind_of_error (Action.onSecond_of_eq he i)⟩
  constructor
  · intro i r s hr
    obtain ⟨t, ht⟩ | ⟨e, he⟩ := here i s
    · rw [ht]
      exact (h t).some s hr
    · rw [he]
  · intro i s hr
    obtain ⟨t, ht⟩ | ⟨e, he⟩ := here i s
    · rw [ht]
      exact (h t).none s hr
    · exact .inl ⟨e, he⟩

theorem Uses.forget {x : Action (RenewalInfo × σ) α} (h : Uses A x) : Uses A x.forget where
  some s hr := h.some s hr
  none s hr := by
    obtain ⟨e, he⟩ | ⟨same, failed⟩ := h.none s hr
    · exact .inl ⟨e, by rw [Action.forget, he]; rfl⟩
    · exact .inr ⟨same, fun e t hu => by rw [Action.forget, failed e t hu]; rfl⟩

end Use

namespace Operation

variable (A : Authority σ) {o : Operation} {i : RenewalInfo} {r : Record} {l : List Access} {s : σ}

/-- **Everything but an update looks at the record only.** -/
theorem uses_act (h : o ≠ update) : Uses A (o.act A) := by
  have decided (p : Record → DateTime → Bool) (time : Option DateTime) :
      Uses A (decision A p time).forget :=
    Uses.forget A (uses_utc A time fun t => uses_record A fun r => .ok (p r t))
  cases o with
  | update => exact absurd rfl h
  | start => exact Uses.forget A (uses_record A fun r => .ok r.start)
  | finish => exact Uses.forget A (uses_record A fun r => .ok r.finish)
  | explanationUrl => exact Uses.forget A (uses_record A fun r => .ok r.explanationUrl)
  | retryAfter => exact Uses.forget A (uses_record A fun r => .ok r.retryAfter)
  | isNotRequired time => exact decided Record.isEarly time
  | isRecommended time => exact decided Record.isOpen time
  | isOverdue time => exact decided Record.isOver time
  | proposal frequency now fraction =>
    exact Uses.forget A (uses_utc A now fun t =>
      uses_record A fun r => r.proposal frequency t fraction)

/-! ## Authorities that keep books -/

section Simulates

open AcmeClient.Action (Simulates simulates_pure simulates_fail simulates_ofExcept
  simulates_modifyFirst)

variable {f : τ → σ} {B : Authority τ} {A : Authority σ} (h : B.Simulates f A)
include h

theorem simulates_update : Simulates (Prod.map id f) (RenewalInfo.update B) (RenewalInfo.update A) :=
  Simulates.get_bind fun p => (simulates_fetch h p.1.location).onSecond.bind fun r =>
    (simulates_modifyFirst _).bind fun _ => simulates_pure r

theorem simulates_record : Simulates (Prod.map id f) (record B) (record A) := by
  refine Simulates.get_bind fun ⟨i, t⟩ => ?_
  dsimp only [Prod.map, id]
  cases i.record? with
  | some r => exact simulates_pure r
  | none => exact simulates_update h

theorem simulates_entry (g : Record → α) : Simulates (Prod.map id f) (entry B g) (entry A g) :=
  (simulates_record h).bind fun _ => simulates_pure _

theorem simulates_utc (time : Option DateTime) : Simulates f (utc B time) (utc A time) := by
  cases time with
  | none => exact h.clock
  | some t =>
    dsimp only [utc]
    cases t.toUtc? with
    | some u => exact simulates_pure u
    | none => exact simulates_fail _

theorem simulates_decision (p : Record → DateTime → Bool) (time : Option DateTime) :
    Simulates (Prod.map id f) (decision B p time) (decision A p time) :=
  (simulates_utc h time).onSecond.bind fun _ => (simulates_record h).bind fun _ =>
    simulates_pure _

theorem simulates_act (o : Operation) : Simulates (Prod.map id f) (o.act B) (o.act A) := by
  cases o with
  | update => exact (simulates_update h).forget
  | start => exact (simulates_entry h _).forget
  | finish => exact (simulates_entry h _).forget
  | explanationUrl => exact (simulates_entry h _).forget
  | retryAfter => exact (simulates_entry h _).forget
  | isNotRequired time => exact (simulates_decision h _ time).forget
  | isRecommended time => exact (simulates_decision h _ time).forget
  | isOverdue time => exact (simulates_decision h _ time).forget
  | proposal frequency now fraction =>
    exact ((simulates_utc h now).onSecond.bind fun t => (simulates_record h).bind fun r =>
      simulates_ofExcept _).forget

end Simulates

end Operation

end RenewalInfo

end AcmeClient
