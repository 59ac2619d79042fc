import AcmeClient.Proofs.Client.Footprint
import AcmeClient.Proofs.Environment.Agreement
import AcmeClient.Proofs.Environment.Files

/-!
# The addresses that are asked without an account

* `Environment.addresses`: where the directories, nonces and revocations of all authorities are;
* `Environment.Consults`: nothing else is asked from one environment to another;
* **`Environment.consults_revokeFile`**: nothing else is asked for a revocation with the key of the
  certificate.
-/

namespace AcmeClient

/-- The addresses at which an authority is asked without an account. -/
def Instance.addresses : Instance → List String
  | client c m => c.addresses m.directory
  | _ => []

namespace Environment

/-- The addresses at which the authorities are asked without an account. -/
def addresses (v : Environment) : List String :=
  v.instances.flatMap Instance.addresses

/-- From one environment to another, only these addresses are asked; authorities keep theirs. -/
structure Consults (v w : Environment) : Prop where
  kept : ∀ (n : Nat) (i : Instance), v.instances[n]? = some i →
    ∃ j, w.instances[n]? = some j ∧ i.addresses ⊆ j.addresses
  asked : ∃ new, w.surroundings.exchanges = v.surroundings.exchanges ++ new ∧
    ∀ e ∈ new, e.request.url ∈ w.addresses

variable {u v w : Environment} {n : Nat} {i j : Instance}

theorem mem_addresses (hi : v.instances[n]? = some i) : i.addresses ⊆ v.addresses :=
  fun _ ha => List.mem_flatMap.mpr ⟨i, List.mem_of_getElem? hi, ha⟩

theorem Consults.subset (h : Consults v w) : v.addresses ⊆ w.addresses := by
  intro a ha
  obtain ⟨i, hi, ha⟩ := List.mem_flatMap.mp ha
  obtain ⟨n, hn⟩ := List.getElem?_of_mem hi
  obtain ⟨j, hj, subset⟩ := h.kept n i hn
  exact mem_addresses hj (subset ha)

theorem consults_of_eq (hi : w.instances = v.instances)
    (he : w.surroundings.exchanges = v.surroundings.exchanges) : Consults v w where
  kept _ i h := ⟨i, hi ▸ h, List.Subset.refl _⟩
  asked := ⟨[], he.trans (List.append_nil _).symm, nofun⟩

theorem Consults.refl (v : Environment) : Consults v v :=
  consults_of_eq rfl rfl

theorem Consults.trans (h : Consults u v) (h' : Consults v w) : Consults u w where
  kept n i hi := by
    obtain ⟨j, hj, subset⟩ := h.kept n i hi
    obtain ⟨k, hk, subset'⟩ := h'.kept n j hj
    exact ⟨k, hk, List.Subset.trans subset subset'⟩
  asked := by
    obtain ⟨new, hn, asked⟩ := h.asked
    obtain ⟨new', hn', asked'⟩ := h'.asked
    refine ⟨new ++ new', by rw [hn', hn, List.append_assoc], fun e he => ?_⟩
    rcases List.mem_append.mp he with he | he
    · exact h'.subset (asked e he)
    · exact asked' e he

/-! ## Authorities -/

theorem consults_put {s : Surroundings} (hi : v.instances[n]? = some i)
    (kept : i.addresses ⊆ j.addresses)
    (asked : ∃ new, s.exchanges = v.surroundings.exchanges ++ new ∧
      ∀ e ∈ new, e.request.url ∈ j.addresses) :
    Consults v { v with instances := v.instances.set n j, surroundings := s } := by
  obtain ⟨bound, -⟩ := List.getElem?_eq_some_iff.mp hi
  have here : (v.instances.set n j)[n]? = some j := List.getElem?_set_self bound
  refine ⟨fun m k hk => ?_, ?_⟩
  · by_cases hm : n = m
    · subst hm
      cases hi.symm.trans hk
      exact ⟨j, here, kept⟩
    · exact ⟨k, (List.getElem?_set_ne hm).trans hk, List.Subset.refl _⟩
  · obtain ⟨new, hn, asked⟩ := asked
    exact ⟨new, hn, fun e he =>
      mem_addresses (v := { v with instances := v.instances.set n j, surroundings := s }) here
        (asked e he)⟩

variable {α : Type}

theorem consults_act (f : Instance.Use α)
    (client : ∀ c m, v.instances[n]? = some (.client c m) →
      Client.Consults c ⟨m, v.surroundings⟩ (f Client.State c.authority ⟨m, v.surroundings⟩).2)
    (general : ∀ s, (f Surroundings (Authority.general (·.clock) Surroundings.note) s).2.exchanges =
      s.exchanges)
    (scripted : ∀ p, (f (Scripted × Surroundings) Scripted.authority p).2.2.exchanges =
      p.2.exchanges) : Consults v (act n f v).2 := by
  unfold act
  cases hi : v.instances[n]? with
  | none => exact .refl v
  | some i =>
    cases i with
    | client c m =>
      obtain ⟨known, asked⟩ := client c m hi
      exact consults_put hi (Client.addresses_subset known) asked
    | general =>
      exact consults_put hi (List.Subset.refl _)
        ⟨[], (general _).trans (List.append_nil _).symm, nofun⟩
    | scripted t =>
      exact consults_put hi (List.Subset.refl _)
        ⟨[], (scripted (t, v.surroundings)).trans (List.append_nil _).symm, nofun⟩

/-- The address goes to a client only if it offers it. -/
def Offered (v : Environment) (n : Nat) (url : Value) : Prop :=
  ∀ c m, v.instances[n]? = some (.client c m) → c.Offers m.directory url

theorem consults_resourceUrl? (n : Nat) (name : String) (v : Environment) :
    Consults v ((authority n).resourceUrl? name v).2 := by
  refine consults_act (fun _ A => A.resourceUrl? name)
    (fun c m _ => Client.consults_resourceUrl? name _) (fun _ => rfl) fun p => ?_
  change (Scripted.resourceUrl? name p).2.2.exchanges = _
  rw [Scripted.resourceUrl?_eq]

theorem offered_of_resourceUrl? {name : String} {url : Value} (hn : name ∈ Client.accountless)
    (h : (authority n).resourceUrl? name v = (.ok url, w)) : w.Offered n url := by
  intro c m hw
  change act n (fun _ A => A.resourceUrl? name) v = _ at h
  unfold act at h
  cases hi : v.instances[n]? with
  | none =>
    rw [hi] at h
    cases h
  | some i =>
    obtain ⟨bound, -⟩ := List.getElem?_eq_some_iff.mp hi
    rw [hi] at h
    obtain ⟨hr, rfl⟩ := Prod.mk.inj h
    change (v.instances.set n _)[n]? = _ at hw
    rw [List.getElem?_set_self bound] at hw
    cases i with
    | client c' m' =>
      obtain ⟨rfl, rfl⟩ := Instance.client.inj (Option.some.inj hw)
      exact Client.offers_of_resourceUrl? hn (Prod.ext hr rfl)
    | general => cases hw
    | scripted t => cases hw

theorem consults_resourceUrl (n : Nat) (name : String) (v : Environment) :
    Consults v ((authority n).resourceUrl name v).2 := by
  refine Action.bind_rel Consults.trans (consults_resourceUrl? n name v) fun url w _ => ?_
  cases url <;> exact .refl w

theorem offered_of_resourceUrl {name : String} {url : Value} (hn : name ∈ Client.accountless)
    (h : (authority n).resourceUrl name v = (.ok url, w)) : w.Offered n url := by
  obtain ⟨url', u, hu, h⟩ := Action.bind_eq_ok_iff.mp h
  have offered := offered_of_resourceUrl? hn hu
  cases url' <;> cases h <;> exact offered

theorem consults_sendSigned {url : Value} (offered : v.Offered n url) (payload : Value)
    (k : PrivateKey) : Consults v ((authority n).sendSigned url payload (some k) v).2 := by
  refine consults_act (fun _ A => A.sendSigned url payload (some k))
    (fun c m hi => Client.asks_sendSigned payload k _ (offered c m hi)) (fun _ => rfl) fun p => ?_
  change (Scripted.sendSigned url payload (some k) p).2.2.exchanges = _
  cases hk : k.publicKey <;> simp only [Scripted.sendSigned, hk] <;> rfl

/-! ## Revocations -/

theorem consults_note (e : Log.Entry) (v : Environment) : Consults v (say e v).2 :=
  consults_of_eq rfl rfl

theorem consults_revokeWithKey (n : Nat) (k : PrivateKey) (c : Certificate.Given) (reason : Value)
    (v : Environment) :
    Consults v (Revocation.revokeWithKey (authority n) (some k) c reason v).2 := by
  refine Action.bind_rel Consults.trans (.refl v) fun request v _ => ?_
  refine Action.bind_rel Consults.trans (.refl v) fun serial v _ => ?_
  refine Action.bind_rel Consults.trans (consults_note _ v) fun _ v _ => ?_
  refine Action.bind_rel Consults.trans (consults_resourceUrl n _ v) fun url w hw => ?_
  have offered := offered_of_resourceUrl (by decide) hw
  exact Action.bind_rel Consults.trans (consults_sendSigned offered _ k) fun _ v _ =>
    consults_note _ v

theorem consults_register (text : String) (i : Instance) (v : Environment) :
    Consults v (register text i v).2 where
  kept n j h := by
    obtain ⟨bound, -⟩ := List.getElem?_eq_some_iff.mp h
    exact ⟨j, (List.getElem?_append_left bound).trans h, List.Subset.refl _⟩
  asked := ⟨[], (List.append_nil _).symm, nofun⟩

theorem consults_readKey (file : Value) (v : Environment) : Consults v (readKey file v).2 := by
  rw [readKey_eq]
  exact .refl v

theorem consults_authorityFor (settings : Value) (v : Environment) :
    Consults v (authorityFor settings v).2 := by
  refine Action.bind_rel Consults.trans (.refl v) fun text v _ => ?_
  rw [Action.get_bind]
  cases v.registry.lookup text with
  | some n => exact .refl v
  | none =>
    refine Action.bind_rel Consults.trans (.refl v) fun ms v _ => ?_
    refine Action.bind_rel Consults.trans (.refl v) fun file v _ => ?_
    refine Action.bind_rel Consults.trans (consults_note _ v) fun _ v _ => ?_
    refine Action.bind_rel Consults.trans (consults_readKey file v) fun key v _ => ?_
    exact Action.bind_rel Consults.trans (.refl v) fun i v _ => consults_register text i v

/-- **Without an account, nothing is asked about one.** -/
theorem consults_revokeFile (file settings reason : Value) {keyFile : Value}
    (own : keyFile.isTrue = true) (v : Environment) :
    Consults v (revokeFile file settings reason keyFile v).2 := by
  refine Action.bind_rel Consults.trans ?_ fun c v _ => ?_
  · rw [readCertificate_eq]
    exact .refl v
  · refine Action.bind_rel Consults.trans (consults_authorityFor settings v) fun n v _ => ?_
    rw [own]
    refine Action.bind_rel Consults.trans (consults_note _ v) fun _ v _ => ?_
    exact Action.bind_rel Consults.trans (consults_readKey keyFile v) fun key v _ =>
      consults_revokeWithKey n key (.certificate c) reason v

end Environment

end AcmeClient
