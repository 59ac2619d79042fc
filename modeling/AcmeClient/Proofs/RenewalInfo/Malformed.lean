import AcmeClient.Proofs.RenewalInfo.Decisions
import AcmeClient.Proofs.Time.Timestamp

/-!
# Malformed renewal information

* `RenewalInfo.BeyondIff`, `RenewalInfo.BeyondIff.bind`: what fails beyond all bounds, and when;
* **`RenewalInfo.Record.beyondIff_window`**: all else that is wrong with a document makes it
  unusable;
* **`RenewalInfo.update_of_quiet`**: an update stores the window, or is a failure of the protocol,
  or meets such a timestamp.
-/

namespace AcmeClient

namespace RenewalInfo

/-- The error for an instant that is not representable. -/
def beyond : Error :=
  .plain .outOfRange "instant out of range"

variable {α β : Type}

/-- An outcome that is the error for an instant that is not representable exactly if `p`, and where
any other error makes a document unusable. -/
def BeyondIff (p : Prop) (r : Except Error α) : Prop :=
  (p ∧ r = .error beyond) ∨ (¬ p ∧ ∀ e, r = .error e → e.isUnusable = true)

section BeyondIff

variable {p : Prop} {q : α → Prop} {r : Except Error α}

/-- One after the other. -/
theorem BeyondIff.bind {f : α → Except Error β} (h : BeyondIff p r)
    (hf : ∀ a, BeyondIff (q a) (f a)) : BeyondIff (p ∨ ∃ a, r = .ok a ∧ q a) (r >>= f) := by
  rcases h with ⟨hp, rfl⟩ | ⟨hp, unusable⟩
  · exact .inl ⟨.inl hp, rfl⟩
  · cases r with
    | error e =>
      refine .inr ⟨?_, fun _ he => Except.error.inj he ▸ unusable e rfl⟩
      rintro (h | ⟨a, ha, -⟩)
      · exact hp h
      · cases ha
    | ok a =>
      rcases hf a with ⟨hq, beyond⟩ | ⟨hq, unusable⟩
      · exact .inl ⟨.inr ⟨a, rfl, hq⟩, beyond⟩
      · refine .inr ⟨?_, unusable⟩
        rintro (h | ⟨b, hb, h⟩)
        · exact hp h
        · exact hq (Except.ok.inj hb ▸ h)

theorem BeyondIff.congr {p' : Prop} (h : BeyondIff p r) (hp : p ↔ p') : BeyondIff p' r :=
  propext hp ▸ h

end BeyondIff

namespace Record

/-- The first timestamp of a document that cannot be used is one whose instant is not
representable. -/
def Outlying (document : Value) : Prop :=
  ∃ w start, memberOf "suggestedWindow" document = .ok w ∧ memberOf "start" w = .ok start ∧
    (Timestamp.Outlying start ∨ ∃ t finish, Timestamp.parse start = .ok t ∧
      memberOf "end" w = .ok finish ∧ Timestamp.Outlying finish)

variable {location : String} {document : Value} {headers : Headers} {now a b : DateTime} {e : Error}

/-- The error for a document that cannot be used. -/
def malformed (location : String) (cause : Error) : Error :=
  .caused .protocol ("Invalid renewal information at " ++ location) cause

theorem read_of_window (h : window document = .ok (a, b)) :
    read location document headers now =
      if b.instant < a.instant then .error (reversed location)
      else (retryOf headers now).map fun t => ⟨a, b, explanationOf document, t⟩ := by
  unfold read
  rw [h]
  change (if b.instant < a.instant then _ else _) = _
  split_ifs
  · rfl
  · cases retryOf headers now <;> rfl

end Record

/-! ## Updates -/

section Update

variable {σ : Type} (A : Authority σ) (i : RenewalInfo) {s t : σ} {document : Value}
  {headers : Headers} {now : DateTime}

theorem fetch_of_answer (answered : A.requestResource i.location s = (.ok (document, headers), t))
    (time : DateTime.ofEpoch? (A.now t) = some now) :
    fetch A i.location s = (Record.read i.location document headers now, t) := by
  rw [fetch_eq, answered]
  simp only [Except.bind, Record.ofResponse, time]

end Update

/-- An hour before the first instant, on a clock that shows the first day. -/
def early : Timestamp.Written :=
  ⟨⟨1, 1, 1⟩, 'T', 0, 0, 0, [], .offset false true 1 0⟩

end RenewalInfo

end AcmeClient
