import AcmeClient.Action

/-!
# Actions in a row

What two actions in a row do, from what each of them does.

* `Action.bind_of_ok`, `Action.bind_of_error` and their like for basic actions: the outcome from
  that the first action;
* `Action.bind_eq_ok_iff`, `Action.except_bind_eq_ok_iff`: both succeed if their sequence does;
* `Action.bind_rel`: a transitive relation that both actions keep is kept by their sequence;
* `Action.FailsWith`: the errors of a sequence are those of its actions;
* `Action.mapError_eq`, `Action.forget`: an action with other errors, and one without its result.
-/

namespace AcmeClient

theorem wrapWhen_eq_ok_iff {α : Type} {p : Error → Bool} {k : ErrorKind} {m : String}
    {r : Except Error α} {a : α} : wrapWhen p k m r = .ok a ↔ r = .ok a := by
  unfold wrapWhen
  cases r with
  | ok b => rfl
  | error e =>
    by_cases hp : p e
    · simp [hp]
    · simp [hp]

namespace Action

variable {σ α β : Type} {x : Action σ α} {f : α → Action σ β} {s t u : σ} {a : α} {b : β}
  {e : Error}

theorem bind_of_ok (h : x s = (.ok a, t)) : (x >>= f) s = f a t := by
  change Action.bind x f s = _
  rw [Action.bind, h]

theorem bind_of_error (h : x s = (.error e, t)) : (x >>= f) s = (.error e, t) := by
  change Action.bind x f s = _
  rw [Action.bind, h]

theorem fst_bind_of_error (h : (x s).1 = .error e) : ((x >>= f) s).1 = .error e := by
  have failed : x s = (.error e, (x s).2) := Prod.ext h rfl
  rw [bind_of_error failed]

theorem ofExcept_bind_of_ok {r : Except Error α} (h : r = .ok a) : (ofExcept r >>= f) s = f a s :=
  bind_of_ok (congrArg (·, s) h)

theorem ofExcept_bind_of_error {r : Except Error α} (h : r = .error e) :
    (ofExcept r >>= f) s = (.error e, s) :=
  bind_of_error (congrArg (·, s) h)

theorem bind_pure (x : Action σ α) (g : α → β) (s : σ) :
    (x >>= fun a => Pure.pure (g a)) s = ((x s).1.map g, (x s).2) := by
  rcases h : x s with ⟨e | a, t⟩
  · exact bind_of_error h
  · exact bind_of_ok h

theorem bind_ofExcept (x : Action σ α) (f : α → Except Error β) (s : σ) :
    (x >>= fun a => ofExcept (f a)) s = ((x s).1 >>= f, (x s).2) := by
  rcases h : x s with ⟨e | a, t⟩
  · exact bind_of_error h
  · exact bind_of_ok h

theorem bind_congr {y : Action σ α} (h : x s = y s) : (x >>= f) s = (y >>= f) s := by
  change Action.bind x f s = Action.bind y f s
  rw [Action.bind, Action.bind, h]

theorem get_bind {f : σ → Action σ β} : (get >>= f) s = f s s :=
  rfl

theorem onSecond_of_eq {τ : Type} {r : Except Error α} (h : x s = (r, t)) (v : τ) :
    onSecond x (v, s) = (r, (v, t)) := by
  rw [onSecond, within, h]

theorem map_eq_ok_iff {r : Except Error α} {f : α → β} :
    r.map f = .ok b ↔ ∃ a, r = .ok a ∧ f a = b := by
  cases r <;> simp [Except.map]

theorem except_bind_eq_ok_iff {ε : Type} {r : Except ε α} {f : α → Except ε β} :
    (r >>= f) = .ok b ↔ ∃ a, r = .ok a ∧ f a = .ok b := by
  cases r with
  | error e => exact ⟨nofun, fun ⟨_, h, _⟩ => nomatch h⟩
  | ok a => exact ⟨fun h => ⟨a, rfl, h⟩, fun ⟨_, h, hf⟩ => Except.ok.inj h ▸ hf⟩

theorem toOption_eq_some_iff {ε : Type} {r : Except ε α} {a : α} :
    r.toOption = some a ↔ r = .ok a := by
  cases r <;> simp [Except.toOption]

/-- **A sequence succeeds where its first action does and leads to a second one that does.** -/
theorem bind_eq_ok_iff :
    (x >>= f) s = (.ok b, u) ↔ ∃ a t, x s = (.ok a, t) ∧ f a t = (.ok b, u) := by
  rcases h : x s with ⟨r, t⟩
  cases r with
  | ok a =>
    rw [bind_of_ok h]
    constructor
    · exact fun hf => ⟨a, t, rfl, hf⟩
    · rintro ⟨_, _, hx, hf⟩
      cases hx
      exact hf
  | error e =>
    rw [bind_of_error h]
    constructor
    · intro hf
      cases hf
    · rintro ⟨_, _, hx, _⟩
      cases hx

/-- **A transitive relation that both actions keep is kept by their sequence.** -/
theorem bind_rel {R : σ → σ → Prop} (trans : ∀ {s t u}, R s t → R t u → R s u)
    (hx : R s (x s).2) (hf : ∀ a t, x s = (.ok a, t) → R t (f a t).2) : R s ((x >>= f) s).2 := by
  rcases h : x s with ⟨r, t⟩
  rw [h] at hx
  cases r with
  | ok a =>
    rw [bind_of_ok h]
    exact trans hx (hf a t h)
  | error e =>
    rw [bind_of_error h]
    exact hx

theorem bind_assoc {γ : Type} (x : Action σ α) (f : α → Action σ β) (g : β → Action σ γ) :
    x >>= f >>= g = x >>= fun a => f a >>= g := by
  funext s
  rcases h : x s with ⟨e | a, t⟩
  · rw [bind_of_error h, bind_of_error (bind_of_error h)]
  · rw [bind_of_ok h]
    rcases hf : f a t with ⟨e | b, u⟩
    · rw [bind_of_error hf, bind_of_error ((bind_of_ok h).trans hf)]
    · rw [bind_of_ok hf, bind_of_ok ((bind_of_ok h).trans hf)]

/-- All errors that the action ends with satisfy `Q`. -/
def FailsWith (Q : Error → Prop) (x : Action σ α) : Prop :=
  ∀ s e t, x s = (.error e, t) → Q e

theorem failsWith_bind {Q : Error → Prop} (hx : FailsWith Q x) (hf : ∀ a, FailsWith Q (f a)) :
    FailsWith Q (x >>= f) := by
  intro s e u h
  rcases hs : x s with ⟨d | a, t⟩
  · rw [bind_of_error hs] at h
    cases h
    exact hx s _ _ hs
  · rw [bind_of_ok hs] at h
    exact hf a t e u h

theorem failsWith_pure {Q : Error → Prop} (a : α) : FailsWith Q (Pure.pure a : Action σ α) :=
  fun _ _ _ h => by cases h

theorem failsWith_ofExcept {Q : Error → Prop} {r : Except Error α} (h : ∀ e, r = .error e → Q e) :
    FailsWith Q (ofExcept r : Action σ α) :=
  fun _ _ _ hs => h _ (congrArg Prod.fst hs)

theorem mapError_eq (g : Error → Error) (x : Action σ α) (s : σ) :
    x.mapError g s = ((x s).1.mapError g, (x s).2) := by
  rcases h : x s with ⟨e | a, t⟩ <;> rw [mapError, h] <;> rfl

theorem mapError_id (x : Action σ α) : x.mapError id = x := by
  funext s
  rw [mapError_eq]
  rcases x s with ⟨e | a, t⟩ <;> rfl

/-- The same action without its result. -/
def forget (x : Action σ α) : Action σ Unit := fun s =>
  ((x s).1.map fun _ => (), (x s).2)

theorem forget_of_eq {r : Except Error α} (h : x s = (r, t)) :
    x.forget s = (r.map fun _ => (), t) := by
  rw [forget, h]

theorem forget_eq (x : Action σ α) : x.forget = x >>= fun _ => Pure.pure () :=
  funext fun s => (bind_pure x _ s).symm

theorem forget_bind_pure (x : Action σ α) (g : α → β) :
    (x >>= fun a => Pure.pure (g a)).forget = x.forget := by
  rw [forget_eq, forget_eq, bind_assoc]
  rfl

end Action

end AcmeClient
