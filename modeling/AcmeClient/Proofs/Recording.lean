import AcmeClient.Proofs.Simulation

/-!
# Recorded authorities

How often an authority is asked for a certificate cannot be told from its answers. A recorded
authority keeps a list of these requests next to its state. In all else it is the authority itself.

* `Authority.Delivery`, `Authority.recorded`: a request for a certificate with its outcome, and the
  authority that writes them down;
* `Authority.simulates_recorded`: the record changes nothing else;
* `RenewalInfo.fetch_recorded`, `Revocation.revoke_recorded`: what asks for no certificate leaves
  the list alone.
-/

namespace AcmeClient

namespace Action

variable {σ τ α β : Type}

theorem onSecond_bind (x : Action σ α) (f : α → Action σ β) :
    (onSecond (x >>= f) : Action (τ × σ) β) = onSecond x >>= fun a => onSecond (f a) := by
  funext ⟨t, s⟩
  change (((x >>= f) s).1, (t, ((x >>= f) s).2)) = _
  rcases h : x s with ⟨d | a, u⟩
  · rw [bind_of_error h, bind_of_error (onSecond_of_eq h t)]
  · rw [bind_of_ok h, bind_of_ok (onSecond_of_eq h t)]
    rfl

theorem onSecond_mapError (g : Error → Error) (x : Action σ α) :
    (onSecond (x.mapError g) : Action (τ × σ) α) = (onSecond x).mapError g := by
  funext ⟨t, s⟩
  rw [onSecond, within, mapError_eq, mapError_eq]
  rfl

end Action

/-! ## Recorded authorities -/

namespace Authority

variable {σ : Type} (A : Authority σ)

/-- A request for a certificate, and what came of it. -/
structure Delivery where
  url : String
  outcome : Except Error (Value × Headers)

/-- The authority, with every request for a certificate written down. -/
def recorded : Authority (List Delivery × σ) where
  now p := A.now p.2
  note e p := (p.1, A.note e p.2)
  resourceUrl? name := Action.onSecond (A.resourceUrl? name)
  requestCertificate url p :=
    let (r, s) := A.requestCertificate url p.2
    (r, (p.1 ++ [⟨url, r⟩], s))
  requestResource url := Action.onSecond (A.requestResource url)
  sendSigned url payload key := Action.onSecond (A.sendSigned url payload key)

theorem simulates_recorded : A.recorded.Simulates Prod.snd A where
  now _ := rfl
  note _ _ := rfl
  resourceUrl? _ _ := rfl
  requestCertificate _ _ := rfl
  requestResource _ _ := rfl
  sendSigned _ _ _ _ := rfl

theorem clock_recorded : A.recorded.clock = Action.onSecond A.clock := by
  funext ⟨l, s⟩
  have time : A.recorded.now (l, s) = A.now s := rfl
  unfold clock
  simp only [Action.onSecond, Action.within, Action.get_bind, time]
  cases DateTime.ofEpoch? (A.now s) <;> rfl

theorem resourceUrl_recorded (name : String) :
    A.recorded.resourceUrl name = Action.onSecond (A.resourceUrl name) := by
  unfold resourceUrl
  rw [Action.onSecond_bind]
  congr 1
  funext v
  cases v <;> rfl

end Authority

variable {σ : Type} (A : Authority σ)

theorem RenewalInfo.fetch_recorded (location : String) :
    fetch A.recorded location = Action.onSecond (fetch A location) := by
  unfold fetch
  rw [Action.onSecond_bind, Authority.clock_recorded]
  congr 1
  funext ⟨d, h⟩
  rw [Action.onSecond_bind]
  rfl

theorem Revocation.revoke_recorded (means : String) (key : Option PrivateKey)
    (c : Certificate.Given) (reason : Value) :
    revoke A.recorded means key c reason = Action.onSecond (revoke A means key c reason) := by
  unfold revoke
  simp only [Action.onSecond_bind, Authority.resourceUrl_recorded]
  rfl

end AcmeClient
