import AcmeClient.Proofs.Action
import AcmeClient.RenewalInfo
import AcmeClient.Revocation

/-!
# Simulation

An authority that keeps books about what it is asked for does in all else what the authority without
these books does.

* `Action.Simulates`: an action does what another one does on a part of its state;
* `Authority.Simulates`: an authority answers what another one answers on a part of its state;
* **`RenewalInfo.simulates_fetch`**, **`Revocation.simulates_revoke`**: what is done with such an
  authority is what is done with the other one.
-/

namespace AcmeClient

namespace Action

variable {ρ σ τ α β : Type}

/-- What `x` does is what `y` does on the part of the state that `f` shows. -/
def Simulates (f : τ → σ) (x : Action τ α) (y : Action σ α) : Prop :=
  ∀ t, ((x t).1, f (x t).2) = y (f t)

variable {f : τ → σ} {x : Action τ α} {y : Action σ α}

theorem Simulates.bind {g : α → Action τ β} {h : α → Action σ β} (hx : Simulates f x y)
    (hg : ∀ a, Simulates f (g a) (h a)) : Simulates f (x >>= g) (y >>= h) := by
  intro t
  have hy := hx t
  rcases hr : x t with ⟨e | a, u⟩
  · rw [hr] at hy
    rw [bind_of_error hr, bind_of_error hy.symm]
  · rw [hr] at hy
    rw [bind_of_ok hr, bind_of_ok hy.symm]
    exact hg a u

theorem Simulates.get_bind {g : τ → Action τ β} {h : σ → Action σ β}
    (hg : ∀ t, Simulates f (g t) (h (f t))) : Simulates f (get >>= g) (get >>= h) :=
  fun t => hg t t

theorem Simulates.mapError (g : Error → Error) (hx : Simulates f x y) :
    Simulates f (x.mapError g) (y.mapError g) := by
  intro t
  rw [mapError_eq, mapError_eq, ← hx t]

theorem Simulates.forget (hx : Simulates f x y) : Simulates f x.forget y.forget := by
  intro t
  have hy := hx t
  simp only [Action.forget, ← hy]

theorem Simulates.onSecond (hx : Simulates f x y) :
    Simulates (Prod.map (id : ρ → ρ) f) (onSecond x) (onSecond y) := by
  rintro ⟨r, t⟩
  have hy := hx t
  simp only [Action.onSecond, Action.within, Prod.map, id, ← hy]

theorem simulates_pure (a : α) : Simulates f (Pure.pure a) (Pure.pure a) :=
  fun _ => rfl

theorem simulates_fail (e : Error) : Simulates f (fail e : Action τ α) (fail e) :=
  fun _ => rfl

theorem simulates_ofExcept (r : Except Error α) : Simulates f (ofExcept r) (ofExcept r) :=
  fun _ => rfl

theorem simulates_modifyFirst (g : ρ → ρ) :
    Simulates (Prod.map (id : ρ → ρ) f) (modifyFirst g) (modifyFirst g) :=
  fun _ => rfl

end Action

open AcmeClient.Action (simulates_pure simulates_fail simulates_ofExcept)

variable {σ τ : Type} {f : τ → σ} {B : Authority τ} {A : Authority σ}

namespace Authority

/-- What `B` answers is what `A` answers on the part of the state that `f` shows. -/
structure Simulates (f : τ → σ) (B : Authority τ) (A : Authority σ) : Prop where
  now : ∀ t, B.now t = A.now (f t)
  note : ∀ e t, f (B.note e t) = A.note e (f t)
  resourceUrl? : ∀ name, Action.Simulates f (B.resourceUrl? name) (A.resourceUrl? name)
  requestCertificate : ∀ url,
    Action.Simulates f (B.requestCertificate url) (A.requestCertificate url)
  requestResource : ∀ url, Action.Simulates f (B.requestResource url) (A.requestResource url)
  sendSigned : ∀ url payload key,
    Action.Simulates f (B.sendSigned url payload key) (A.sendSigned url payload key)

variable (h : B.Simulates f A)
include h

theorem Simulates.say (e : Log.Entry) : Action.Simulates f (B.say e) (A.say e) :=
  fun t => Prod.ext rfl (h.note e t)

theorem Simulates.clock : Action.Simulates f B.clock A.clock := by
  refine Action.Simulates.get_bind fun t => ?_
  rw [h.now t]
  cases DateTime.ofEpoch? (A.now (f t)) with
  | some u => exact simulates_pure u
  | none => exact simulates_fail _

theorem Simulates.resourceUrl (name : String) :
    Action.Simulates f (B.resourceUrl name) (A.resourceUrl name) := by
  refine (h.resourceUrl? name).bind fun v => ?_
  cases v with
  | null => exact simulates_fail _
  | _ => exact simulates_pure _

end Authority

variable (h : B.Simulates f A)
include h

/-- **Renewal information is fetched in the same way.** -/
theorem RenewalInfo.simulates_fetch (location : String) :
    Action.Simulates f (fetch B location) (fetch A location) :=
  (h.requestResource location).bind fun _ => h.clock.bind fun _ => simulates_ofExcept _

/-- **Certificates are revoked in the same way.** -/
theorem Revocation.simulates_revoke (means : String) (key : Option PrivateKey)
    (c : Certificate.Given) (reason : Value) :
    Action.Simulates f (revoke B means key c reason) (revoke A means key c reason) := by
  refine (simulates_ofExcept _).bind fun request => (simulates_ofExcept _).bind fun serial => ?_
  refine (h.say _).bind fun _ => (h.resourceUrl resource).bind fun url => ?_
  exact (h.sendSigned url (.object request) key).bind fun _ => h.say _

end AcmeClient
