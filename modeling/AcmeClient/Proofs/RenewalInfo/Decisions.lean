import AcmeClient.Proofs.RenewalInfo.Replacing

/-!
# The decisions about a renewal

* `RenewalInfo.Reachable`: the renewal information that a program can come to have;
* `RenewalInfo.instantOf`, `RenewalInfo.Representable`: the instant that a decision is about;
* **`RenewalInfo.decisions_divide_time`**: the three decisions tell the phase of that instant, so
  that exactly one of them holds.
-/

namespace AcmeClient

namespace RenewalInfo

/-- Renewal information after some run. -/
def Reachable (i : RenewalInfo) : Prop :=
  ∃ (σ : Type) (A : Authority σ) (origin : Origin) (events : List (Event σ)) (s : σ),
    (run A events (origin.holder, s)).1.info? = some i

theorem Reachable.stands {i : RenewalInfo} {r : Record} (h : Reachable i)
    (hr : i.record? = some r) : ∃ ms headers now, r.StandsIn ms headers now := by
  obtain ⟨σ, A, origin, events, s, hi⟩ := h
  obtain ⟨h, l, t, plain, -, w⟩ := whole_run A origin events s
  rw [plain] at hi
  refine stands_of_latest (l := l) ?_
  rw [← w.latest, Holder.record?, hi, Option.bind_some, hr]

theorem Reachable.sound {i : RenewalInfo} {r : Record} (h : Reachable i)
    (hr : i.record? = some r) : r.Sound := by
  obtain ⟨ms, headers, now, stands⟩ := h.stands hr
  exact stands.sound

variable {σ : Type}

/-- The instant of a point in time; nothing stands for now. -/
def instantOf (A : Authority σ) (s : σ) : Option DateTime → Int
  | some t => t.instant
  | none => (A.now s + 62135596800) * 1000000

/-- The instant lies in the years 1 to 9999. -/
def Representable (n : Int) : Prop :=
  0 ≤ n ∧ n < DateTime.tickCount

instance (n : Int) : Decidable (Representable n) := by
  unfold Representable
  infer_instance

/-- The point in time at an instant, on the UTC clock. -/
def pointAt (n : Int) : DateTime :=
  ⟨n.toNat, some 0⟩

theorem instant_pointAt {n : Int} (h : 0 ≤ n) : (pointAt n).instant = n := by
  change ((n.toNat : Int) - 0) = n
  rw [Int.toNat_of_nonneg h, Int.sub_zero]

theorem ofTicks?_of_representable {n : Int} (h : Representable n) :
    DateTime.ofTicks? n (some 0) = some (pointAt n) :=
  if_pos h

theorem utc_of_representable (A : Authority σ) (s : σ) {time : Option DateTime}
    (h : Representable (instantOf A s time)) :
    utc A time s = (.ok (pointAt (instantOf A s time)), s) := by
  have same := ofTicks?_of_representable h
  cases time with
  | some u => exact utc_of_toUtc? A s same
  | none =>
    change A.clock s = _
    rcases clock_cases A s with ⟨u, hu, clock⟩ | ⟨e, he, -⟩
    · rw [clock, Option.some.inj (hu.symm.trans same)]
    · cases he.symm.trans same

theorem decision_eq (A : Authority σ) (s : σ) {i : RenewalInfo} {r : Record}
    {time : Option DateTime} (hr : i.record? = some r) (h : Representable (instantOf A s time))
    {p : Record → DateTime → Bool} {q : Phase}
    (hp : ∀ t, p r t = decide (r.phase t.instant = q)) :
    decision A p time (i, s) = (.ok (decide (r.phase (instantOf A s time) = q)), (i, s)) := by
  have time := utc_of_representable A s h
  unfold decision
  rw [Action.bind_of_ok (Action.onSecond_of_eq time i), Action.bind_of_ok (record_of_some A s hr)]
  dsimp only [pure]
  rw [hp, instant_pointAt h.1]
  rfl

/-- **The decisions divide time.** Where a record is stored, a decision at a point in time whose
instant is representable tells the phase of this instant and changes nothing: one decision for each
phase. As time passes the phases follow one another. -/
theorem decisions_divide_time {i : RenewalInfo} {r : Record} (reachable : Reachable i)
    (stored : i.record? = some r) :
    Monotone r.phase ∧
      ∀ (A : Authority σ) (s : σ) (time : Option DateTime), Representable (instantOf A s time) →
        let q := r.phase (instantOf A s time)
        isNotRequired A time (i, s) = (.ok (decide (q = .before)), (i, s)) ∧
          isRecommended A time (i, s) = (.ok (decide (q = .within)), (i, s)) ∧
          isOverdue A time (i, s) = (.ok (decide (q = .behind)), (i, s)) := by
  have sound := reachable.sound stored
  refine ⟨r.phase_mono, fun A s time h => ⟨?_, ?_, ?_⟩⟩
  · exact decision_eq A s stored h fun t => r.isEarly_eq t
  · exact decision_eq A s stored h fun t => r.isOpen_eq t
  · exact decision_eq A s stored h fun t => sound.isOver_eq t

/-- An authority that suggests a window; its state is the time. -/
def suggesting (start finish : String) : Authority Int :=
  { Authority.general id (fun _ s => s) with
    requestResource := fun _ s => (.ok (.object [("suggestedWindow",
      .object [("start", .text start), ("end", .text finish)])], .table []), s) }

/-- The start of March 2026. -/
def march : Int :=
  1772323200

/-- Both ends of this window are one instant, written with two offsets. -/
def momentary : Authority Int :=
  suggesting "2026-03-01T12:00:00.5+01:00" "2026-03-01T06:00:00.500000-05:00"

/-- What is read of that window. -/
def moment : Record :=
  ⟨⟨63907959600500000, some 0⟩, ⟨63907959600500000, some 0⟩, .null, none⟩

/-- Renewal information after an update. -/
def momentInfo : RenewalInfo :=
  ⟨"https://ca/info", some moment⟩

theorem reachable_momentInfo : Reachable momentInfo :=
  ⟨Int, momentary, .alone momentInfo.location, [.info .update], march, rfl⟩

/-- A window that is over when it starts: at its end, on a clock two hours ahead, and a microsecond
before, on a clock that is taken for UTC. -/
theorem decisions_divide_moment :
    Reachable momentInfo ∧ momentInfo.record? = some moment ∧
      Representable (instantOf momentary march (some ⟨63907966800500000, some 7200000000⟩)) ∧
      Representable (instantOf momentary march (some ⟨63907959600499999, none⟩)) ∧
      isNotRequired momentary (some ⟨63907966800500000, some 7200000000⟩) (momentInfo, march) =
        (.ok false, (momentInfo, march)) ∧
      isOverdue momentary (some ⟨63907966800500000, some 7200000000⟩) (momentInfo, march) =
        (.ok true, (momentInfo, march)) ∧
      isNotRequired momentary (some ⟨63907959600499999, none⟩) (momentInfo, march) =
        (.ok true, (momentInfo, march)) := by
  have divide := (decisions_divide_time reachable_momentInfo rfl).2 momentary march
  have late := divide (some ⟨63907966800500000, some 7200000000⟩) (by decide)
  have early := divide (some ⟨63907959600499999, none⟩) (by decide)
  exact ⟨reachable_momentInfo, rfl, by decide, by decide, late.1, late.2.2, early.1⟩

end RenewalInfo

end AcmeClient
