import AcmeClient.Environment
import AcmeClient.Proofs.Client.Agreement

/-!
# Environments that differ on the account side

The authorities of two environments are the same, except for the account keys and accounts of
clients. What is done with them without an account is the same.

* `Instance.Alike`, `Environment.Alike`: what such authorities and environments have in common;
* `Environment.agrees_act`: what is done alike with the authorities is done alike with one of them;
* **`Environment.agrees_revokeWithKey`**: certificates are revoked alike with a key of their own.
-/

namespace AcmeClient

/-- The same authority; account key and account may differ. -/
inductive Instance.Alike : Instance → Instance → Prop where
  | client {c c' : Client} {m m' : Client.Memory} (same : c.ca = c'.ca) (memory : m.Alike m') :
    Alike (.client c m) (.client c' m')
  | same (i : Instance) : Alike i i

theorem Scripted.resourceUrl?_eq (name : String) (p : Scripted × Surroundings) :
    resourceUrl? name p =
      (p.1.directoryFault.elim (.ok (Members.get p.1.directory name)) .error, p) := by
  obtain ⟨t, s⟩ := p
  unfold resourceUrl?
  rw [Action.get_bind]
  dsimp only
  cases t.directoryFault <;> rfl

namespace Environment

/-- Environments that are the same, except for account keys and accounts, the replies of the
addresses in `X`, and the files whose paths are not in `P`. -/
structure Alike (X : String → Prop) (P : Value → Prop) (v w : Environment) : Prop where
  surroundings : v.surroundings.Alike X w.surroundings
  files : ∀ p, P p → v.files.readValue p = w.files.readValue p
  count : v.instances.length = w.instances.length
  instances : ∀ (n : Nat) (i j : Instance), v.instances[n]? = some i → w.instances[n]? = some j →
    i.Alike j

variable {X : String → Prop} {P : Value → Prop} {Q : Jws → Prop} {α : Type}

/-- Two actions do the same in such environments. -/
abbrev Agrees (X : String → Prop) (P : Value → Prop) (Q : Jws → Prop)
    (x y : Action Environment α) : Prop :=
  Action.Agrees X Q (fun v => v.surroundings.exchanges) (Alike X P) x y

theorem agrees_note (e : Log.Entry) : Agrees X P Q (say e) (say e) :=
  Action.agrees_modify (fun _ => rfl) fun _ _ h => { h with surroundings := h.surroundings.note e }

/-! ## Authorities -/

theorem Alike.put {v w : Environment} (h : v.Alike X P w) (n : Nat) {i j : Instance}
    (hij : i.Alike j) {s t : Surroundings} (hs : s.Alike X t) :
    Alike X P { v with instances := v.instances.set n i, surroundings := s }
      { w with instances := w.instances.set n j, surroundings := t } where
  surroundings := hs
  files := h.files
  count := by simpa using h.count
  instances m a b ha hb := by
    simp only [List.getElem?_set] at ha hb
    by_cases hm : n = m
    · rw [if_pos hm] at ha hb
      split_ifs at ha hb
      cases ha
      cases hb
      exact hij
    · rw [if_neg hm] at ha hb
      exact h.instances m a b ha hb

/-- Actions that do the same with an authority that answers from tables. -/
abbrev AgreesScripted (X : String → Prop) (Q : Jws → Prop)
    (x : Action (Scripted × Surroundings) α) : Prop :=
  Action.Agrees X Q (fun p => p.2.exchanges) (fun p q => p.1 = q.1 ∧ p.2.Alike X q.2) x x

/-- **What is done alike with the authorities is done alike with one of them.** -/
theorem agrees_act (n : Nat) (f : Instance.Use α)
    (client : ∀ c c' : Client, c.ca = c'.ca →
      Client.Agrees X Q (f Client.State c.authority) (f Client.State c'.authority))
    (general : Action.Agrees X Q Surroundings.exchanges (Surroundings.Alike X)
      (f Surroundings (Authority.general (·.clock) Surroundings.note))
      (f Surroundings (Authority.general (·.clock) Surroundings.note)))
    (scripted : AgreesScripted X Q (f (Scripted × Surroundings) Scripted.authority)) :
    Agrees X P Q (act n f) (act n f) where
  carries v := by
    unfold act
    cases v.instances[n]? with
    | none => exact .refl _
    | some i =>
      cases i with
      | client c m => exact (client c c rfl).carries ⟨m, v.surroundings⟩
      | general => exact general.carries v.surroundings
      | scripted t => exact scripted.carries (t, v.surroundings)
  same v w h := by
    unfold act
    cases hi : v.instances[n]? with
    | none =>
      have none : w.instances[n]? = none := by
        rw [List.getElem?_eq_none_iff] at hi ⊢
        exact h.count ▸ hi
      rw [none]
      exact fun _ => ⟨rfl, h⟩
    | some i =>
      obtain ⟨j, hj⟩ : ∃ j, w.instances[n]? = some j := by
        obtain ⟨bound, -⟩ := List.getElem?_eq_some_iff.mp hi
        exact ⟨_, List.getElem?_eq_getElem (h.count ▸ bound)⟩
      rw [hj]
      -- two clients do the same, whether they are one client or not
      have clients := fun {c c' : Client} {m m' : Client.Memory} (same : c.ca = c'.ca)
        (memory : m.Alike m') =>
          (client c c' same).same ⟨m, v.surroundings⟩ ⟨m', w.surroundings⟩ ⟨memory, h.surroundings⟩
      intro spares
      cases h.instances n i j hi hj with
      | client same memory =>
        obtain ⟨result, state⟩ := clients same memory spares
        exact ⟨result, h.put n (.client same state.memory) state.surroundings⟩
      | same i =>
        cases i with
        | client c m =>
          obtain ⟨result, state⟩ := clients rfl ⟨rfl, rfl, rfl⟩ spares
          exact ⟨result, h.put n (.client rfl state.memory) state.surroundings⟩
        | general =>
          obtain ⟨result, state⟩ := general.same _ _ h.surroundings spares
          exact ⟨result, h.put n (.same .general) state⟩
        | scripted t =>
          obtain ⟨result, state⟩ :=
            scripted.same (t, v.surroundings) (t, w.surroundings) ⟨rfl, h.surroundings⟩ spares
          refine ⟨result, h.put n ?_ state.2⟩
          change Instance.Alike (.scripted (f _ Scripted.authority (t, v.surroundings)).2.1)
            (.scripted (f _ Scripted.authority (t, w.surroundings)).2.1)
          rw [state.1]
          exact .same _

theorem agreesScripted_resourceUrl? (name : String) :
    AgreesScripted X Q (Scripted.resourceUrl? name) :=
  .of_read _ _ (fun p q h => by rw [h.1]) (fun r => Action.agrees_ofExcept r)
    (Scripted.resourceUrl?_eq name) (Scripted.resourceUrl?_eq name)

theorem agreesScripted_sendSigned (url payload : Value) (k : PrivateKey) :
    AgreesScripted X Q (Scripted.sendSigned url payload (some k)) := by
  refine (Action.agrees_ofExcept _).bind fun p => (Action.agrees_pure _).bind fun algorithm => ?_
  have recorded : ∀ c, AgreesScripted X Q (Scripted.recordCall c) := fun c =>
    Action.agrees_modify (fun _ => rfl) fun _ _ h => ⟨by rw [h.1], h.2⟩
  refine (recorded _).bind fun _ => ?_
  refine ⟨fun _ => .refl _, fun p q h _ => ?_⟩
  obtain ⟨t, s⟩ := p
  obtain ⟨t', s'⟩ := q
  obtain ⟨rfl, h⟩ : t = t' ∧ s.Alike X s' := h
  exact ⟨rfl, rfl, h⟩

variable (n : Nat)

theorem agrees_resourceUrl (name : String) :
    Agrees X P Q ((authority n).resourceUrl name) ((authority n).resourceUrl name) := by
  have optional : Agrees X P Q ((authority n).resourceUrl? name) ((authority n).resourceUrl? name) :=
    agrees_act n (fun _ A => A.resourceUrl? name)
      (fun _ _ same => Client.agrees_resourceUrl? same name) (Action.agrees_fail _)
      (agreesScripted_resourceUrl? name)
  refine optional.bind fun v => ?_
  cases v with
  | null => exact Action.agrees_fail _
  | _ => exact Action.agrees_pure _

theorem agrees_sendSigned (url payload : Value) (k : PrivateKey) :
    Agrees X P k.Signs ((authority n).sendSigned url payload (some k))
      ((authority n).sendSigned url payload (some k)) :=
  agrees_act n (fun _ A => A.sendSigned url payload (some k))
    (fun _ _ same => Client.agrees_sendSigned same url payload k) (Action.agrees_fail _)
    (agreesScripted_sendSigned url payload k)

/-- **Certificates are revoked alike with a key of their own.** -/
theorem agrees_revokeWithKey (k : PrivateKey) (c : Certificate.Given) (reason : Value) :
    Agrees X P k.Signs (Revocation.revokeWithKey (authority n) (some k) c reason)
      (Revocation.revokeWithKey (authority n) (some k) c reason) := by
  refine (Action.agrees_ofExcept _).bind fun request => (Action.agrees_ofExcept _).bind fun serial =>
    (agrees_note _).bind fun _ => ?_
  exact (agrees_resourceUrl n _).bind fun url => (agrees_sendSigned n url _ k).bind fun _ =>
    agrees_note _

end Environment

end AcmeClient
