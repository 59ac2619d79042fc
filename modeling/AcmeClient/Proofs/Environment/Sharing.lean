import AcmeClient.Proofs.Environment.Revocation
import AcmeClient.Proofs.Json.Sorted

/-!
# Sharing authorities

Equal settings share an authority, other settings do not, whatever happens in between.

* `Environment.Event`, `Environment.run`: what happens, one thing after the other;
* `Environment.Orderly`: the authorities in the registry are there, and each is there once;
* `Environment.obtains_authorityFor`: an authority is in the registry, or it is added, or there is
  an error;
* `Environment.Grows`: the registry only grows;
* **`Environment.shared_exactly`**: settings lead to the same authority exactly if they are equal
  but for the order of members.
-/

namespace AcmeClient

namespace Environment

/-- What can happen to an environment. -/
inductive Event where
  /-- The authority for settings is asked for. -/
  | authorityFor (settings : Value)
  /-- Files are created, changed or removed. -/
  | files (f : Files)
  /-- Something is done with one of the authorities. -/
  | act (n : Nat) (f : Instance.Use Unit)

/-- The environment after an event. -/
def Event.next : Event → Environment → Environment
  | authorityFor settings, v => (Environment.authorityFor settings v).2
  | files f, v => { v with files := f }
  | act n f, v => (Environment.act n f v).2

/-- One event after the other, whether calls fail or not. -/
def run (events : List Event) (v : Environment) : Environment :=
  events.foldl (fun v e => e.next v) v

/-- The authorities in the registry are there, and each of them stands for one text. -/
structure Orderly (v : Environment) : Prop where
  distinct : (v.registry.map Prod.snd).Nodup
  present : ∀ p ∈ v.registry, p.2 < v.instances.length

/-- The registry only grows. -/
def Grows (v w : Environment) : Prop :=
  v.registry <+: w.registry

variable {v w : Environment} {settings : Value} {s t : String} {m n : Nat}

/-! ## The registry -/

theorem mem_of_lookup {r : List (String × Nat)} (h : r.lookup t = some n) : (t, n) ∈ r := by
  obtain ⟨before, after, rfl, -⟩ := List.lookup_eq_some_iff.mp h
  exact List.mem_append_right before List.mem_cons_self

theorem Orderly.eq_of_lookup (h : v.Orderly) (hs : v.registry.lookup s = some n)
    (ht : v.registry.lookup t = some n) : s = t :=
  (Prod.mk.inj (List.inj_on_of_nodup_map h.distinct (mem_of_lookup hs) (mem_of_lookup ht) rfl)).1

theorem Grows.of_eq (h : w.registry = v.registry) : v.Grows w :=
  show v.registry <+: w.registry from h.symm ▸ List.prefix_rfl

theorem Grows.lookup (h : v.Grows w) (ht : v.registry.lookup t = some n) :
    w.registry.lookup t = some n := by
  obtain ⟨new, hw⟩ := h
  rw [← hw, List.lookup_append, ht, Option.some_or]

theorem Orderly.register {i : Instance} (h : v.Orderly) : (register t i v).2.Orderly where
  distinct := by
    change ((v.registry ++ [(t, v.instances.length)]).map Prod.snd).Nodup
    rw [List.map_append, List.map_singleton, List.nodup_append]
    refine ⟨h.distinct, List.nodup_singleton _, fun n hn k hk => ?_⟩
    obtain ⟨p, hp, rfl⟩ := List.mem_map.mp hn
    rw [List.mem_singleton.mp hk]
    exact Nat.ne_of_lt (h.present p hp)
  present p hp := by
    change p ∈ v.registry ++ [(t, v.instances.length)] at hp
    change p.2 < (v.instances ++ [i]).length
    rw [List.length_append, List.length_singleton]
    rcases List.mem_append.mp hp with hp | hp
    · exact Nat.lt_succ_of_lt (h.present p hp)
    · rw [List.mem_singleton.mp hp]
      exact Nat.lt_succ_self _

/-! ## Asking for an authority -/

/-- What comes of asking for the authority of settings. -/
inductive Obtains (v : Environment) (settings : Value) : Except Error Nat × Environment → Prop
  | shared {t : String} {n : Nat} (text : settingsText settings = .ok t)
    (known : v.registry.lookup t = some n) : Obtains v settings (.ok n, v)
  | made {t : String} {i : Instance} {u : Environment} (text : settingsText settings = .ok t)
    (unknown : v.registry.lookup t = none) (noted : Noted v u) :
    Obtains v settings (Environment.register t i u)
  | failed {e : Error} {u : Environment} (noted : Noted v u) : Obtains v settings (.error e, u)

theorem obtains_authorityFor (settings : Value) (v : Environment) :
    Obtains v settings (authorityFor settings v) := by
  cases text : settingsText settings with
  | error e =>
    have failed : authorityFor settings v = (.error e, v) := Action.ofExcept_bind_of_error text
    rw [failed]
    exact .failed (.inl rfl)
  | ok t =>
    rw [authorityFor_eq text]
    cases known : v.registry.lookup t with
    | some n => exact .shared text known
    | none =>
      obtain ⟨file, i, makes⟩ | ⟨e, u, failed, noted⟩ := makeAuthority_cases t settings v
      · dsimp only
        rw [makeAuthority_of_makes makes]
        exact .made text known (.inr ⟨_, rfl⟩)
      · dsimp only
        rw [failed]
        exact .failed noted

variable {r : Except Error Nat} {u : Environment}

theorem Obtains.grows (h : Obtains v settings (r, u)) : v.Grows u := by
  cases h with
  | shared => exact List.prefix_rfl
  | made _ _ noted =>
    rw [Grows, ← noted.same.1]
    exact List.prefix_append _ _
  | failed noted => exact .of_eq noted.same.1

theorem Obtains.orderly (h : Obtains v settings (r, u)) (hv : v.Orderly) : u.Orderly := by
  have noted {u} (h : Noted v u) : u.Orderly := by
    obtain ⟨registry, instances, -⟩ := h.same
    exact ⟨registry ▸ hv.distinct, registry ▸ instances ▸ hv.present⟩
  cases h with
  | shared => exact hv
  | made _ _ h => exact (noted h).register
  | failed h => exact noted h

theorem Obtains.lookup (h : Obtains v settings (.ok n, u)) :
    ∃ t, settingsText settings = .ok t ∧ u.registry.lookup t = some n := by
  generalize hr : (Except.ok n, u) = r at h
  cases h with
  | shared text known =>
    cases hr
    exact ⟨_, text, known⟩
  | @made t i u' text unknown noted =>
    cases hr
    refine ⟨t, text, ?_⟩
    change List.lookup t (u'.registry ++ [(t, u'.instances.length)]) = _
    rw [noted.same.1, List.lookup_append, unknown, Option.none_or, List.lookup_cons, beq_self_eq_true]
  | failed => cases hr

/-! ## Runs -/

theorem act_same (n : Nat) (f : Instance.Use Unit) (v : Environment) :
    (act n f v).2.registry = v.registry ∧
      (act n f v).2.instances.length = v.instances.length := by
  unfold act
  cases v.instances[n]? with
  | none => exact ⟨rfl, rfl⟩
  | some i => exact ⟨rfl, List.length_set⟩

theorem next_keeps (e : Event) (hv : v.Orderly) : v.Grows (e.next v) ∧ (e.next v).Orderly := by
  cases e with
  | authorityFor settings =>
    have h := obtains_authorityFor settings v
    exact ⟨h.grows, h.orderly hv⟩
  | files f => exact ⟨List.prefix_rfl, hv.distinct, hv.present⟩
  | act n f =>
    obtain ⟨registry, count⟩ := act_same n f v
    exact ⟨.of_eq registry, registry ▸ hv.distinct, registry ▸ count ▸ hv.present⟩

/-- **The registry grows, and stays in order.** -/
theorem run_keeps (events : List Event) (hv : v.Orderly) :
    v.Grows (run events v) ∧ (run events v).Orderly := by
  induction events generalizing v with
  | nil => exact ⟨List.prefix_rfl, hv⟩
  | cons e events ih =>
    obtain ⟨grows, orderly⟩ := next_keeps e hv
    obtain ⟨grows', orderly'⟩ := ih orderly
    exact ⟨grows.trans grows', orderly'⟩

/-! ## Equal settings -/

variable {S T : Value}

theorem settingsText_eq_iff (hS : S.Jsonlike) (hT : T.Jsonlike) :
    settingsText S = settingsText T ↔ S.Same T := by
  rw [← Json.writeSorted?_eq_iff hS hT]
  obtain ⟨s, hs⟩ := Json.exists_writeSorted? hS
  obtain ⟨t, ht⟩ := Json.exists_writeSorted? hT
  rw [settingsText, settingsText, hs, ht]
  simp

/-- **Settings lead to the same authority exactly if they are equal but for the order of members.**

An error leaves the authorities as they were. Once there is an authority for settings, equal
settings lead to it whatever the files are, and nothing changes, not even the messages. -/
theorem shared_exactly (start : v.registry = []) (before : List Event) (hS : S.Jsonlike) :
    (∀ e u, authorityFor S (run before v) = (.error e, u) →
      u.registry = (run before v).registry ∧ u.instances = (run before v).instances) ∧
    ∀ m u, authorityFor S (run before v) = (.ok m, u) → m < u.instances.length ∧
      ∀ between T, T.Jsonlike →
        (∀ n w, authorityFor T (run between u) = (.ok n, w) → (m = n ↔ S.Same T)) ∧
        (S.Same T → ∀ f, authorityFor T { run between u with files := f } =
          (.ok m, { run between u with files := f })) := by
  have orderly : v.Orderly := ⟨start ▸ List.nodup_nil, start ▸ nofun⟩
  have here := (run_keeps before orderly).2
  have obtained := obtains_authorityFor S (run before v)
  refine ⟨fun e u h => ?_, fun m u h => ?_⟩
  · rw [h] at obtained
    cases obtained with
    | failed noted => exact ⟨noted.same.1, noted.same.2.1⟩
  · rw [h] at obtained
    obtain ⟨s, hs, known⟩ := obtained.lookup
    have learned := obtained.orderly here
    refine ⟨learned.present _ (mem_of_lookup known), fun between T hT => ?_⟩
    obtain ⟨grows, later⟩ := run_keeps between learned
    have kept := grows.lookup known
    refine ⟨fun n w hw => ?_, fun same f => ?_⟩
    · have second := obtains_authorityFor T (run between u)
      rw [hw] at second
      obtain ⟨t, ht, known'⟩ := second.lookup
      have kept' := second.grows.lookup kept
      rw [← settingsText_eq_iff hS hT, hs, ht, Except.ok.injEq]
      -- the registry is one-to-one: a text has one authority, and an authority stands for one text
      constructor
      · rintro rfl
        exact (second.orderly later).eq_of_lookup kept' known'
      · rintro rfl
        exact Option.some.inj (kept'.symm.trans known')
    · have ht : settingsText T = .ok s := ((settingsText_eq_iff hS hT).mpr same).symm.trans hs
      rw [authorityFor_eq ht]
      dsimp only
      rw [kept]

/-- Settings of the known site, with their members in another order. -/
def mixedSettings : Value :=
  .object [("authority", .text "https://ca"), ("api", .text "v2"),
    ("account_key", .text "account.key")]

/-- The authority is shared when there are no files any more. -/
theorem shared_exactly_mixed : ∃ u, authorityFor (siteSettings []) knownSite = (.ok 0, u) ∧
    authorityFor mixedSettings { u with files := ⟨[], []⟩ } =
      (.ok 0, { u with files := ⟨[], []⟩ }) := by
  have made : authorityFor (siteSettings []) knownSite = (.ok 0, _) :=
    authorityFor_of_makes text_siteSettings rfl (makes_site _ 1 [])
  have texts (l : List (String × String)) (names : (l.map Prod.fst).Nodup) :
      (Value.object (l.map fun p => (p.1, .text p.2))).Jsonlike := by
    refine .object _ (by rwa [List.map_map]) fun p hp => ?_
    obtain ⟨q, -, rfl⟩ := List.mem_map.mp hp
    exact .text q.2
  have first : (siteSettings []).Jsonlike :=
    texts [("api", "v2"), ("authority", "https://ca"), ("account_key", "account.key")] (by decide)
  have second : mixedSettings.Jsonlike :=
    texts [("authority", "https://ca"), ("api", "v2"), ("account_key", "account.key")] (by decide)
  have same : (siteSettings []).Same mixedSettings :=
    (Json.writeSorted?_eq_iff first second).mp (by decide +kernel)
  have shared := ((shared_exactly rfl [] first).2 0 _ made).2 [] mixedSettings second
  exact ⟨_, made, shared.2 same ⟨[], []⟩⟩

end Environment

end AcmeClient
