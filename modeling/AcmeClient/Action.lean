import AcmeClient.Error

/-!
# Actions

An action reads and changes a state and ends with a result or an error. What it has changed before
an error remains changed.

* `Action`, `Action.bind`: actions, one after the other;
* `Action.fail`, `Action.ofExcept`, `Action.get`, `Action.modify`: the basic actions;
* `Action.mapError`: the same action with other errors;
* `Action.within`: an action on a part of a larger state.
-/

namespace AcmeClient

/-- Something done on a state `σ` that gives an `α` or fails. -/
def Action (σ α : Type) : Type :=
  σ → Except Error α × σ

namespace Action

variable {σ τ α β : Type}

/-- Give a result and change nothing. -/
def pure (a : α) : Action σ α :=
  fun s => (.ok a, s)

/-- Do one action and then the one that its result leads to, unless it fails. -/
def bind (x : Action σ α) (f : α → Action σ β) : Action σ β := fun s =>
  match x s with
  | (.ok a, t) => f a t
  | (.error e, t) => (.error e, t)

instance : Monad (Action σ) where
  pure := Action.pure
  bind := Action.bind

instance : Inhabited (Action σ α) :=
  ⟨fun s => (.error default, s)⟩

/-- Fail and change nothing. -/
def fail (e : Error) : Action σ α :=
  fun s => (.error e, s)

/-- Give a result that is known already, or fail with a known error. -/
def ofExcept (r : Except Error α) : Action σ α :=
  fun s => (r, s)

/-- The state. -/
def get : Action σ σ :=
  fun s => (.ok s, s)

/-- Change the state. -/
def modify (f : σ → σ) : Action σ Unit :=
  fun s => (.ok (), f s)

/-- The same action; where it fails with `e` it fails with `f e`. -/
def mapError (f : Error → Error) (x : Action σ α) : Action σ α := fun s =>
  match x s with
  | (.ok a, t) => (.ok a, t)
  | (.error e, t) => (.error (f e), t)

/-- An action on the part of a state that `part` reads and `put` replaces. -/
def within (part : τ → σ) (put : σ → τ → τ) (x : Action σ α) : Action τ α := fun t =>
  let (r, s) := x (part t)
  (r, put s t)

/-- An action on the second of two states. -/
def onSecond (x : Action σ α) : Action (τ × σ) α :=
  within (·.2) (fun s p => (p.1, s)) x

/-- Change the first of two states. -/
def modifyFirst (f : τ → τ) : Action (τ × σ) Unit :=
  modify fun p => (f p.1, p.2)

end Action

/-- A failure of the authority becomes a failure to load a resource; other errors stay. -/
def Error.asLoadFailure (resource location : String) (e : Error) : Error :=
  if e.isOwn then .load resource location e else e

end AcmeClient
