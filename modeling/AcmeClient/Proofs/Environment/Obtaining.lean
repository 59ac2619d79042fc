import AcmeClient.Proofs.Environment.Agreement
import AcmeClient.Proofs.Environment.Files

/-!
# Obtaining an authority

The authority of settings was made before, or it is made with the account key. Nothing is asked of
it for that.

* `Environment.Makes`, `Environment.Obtainable`: what it takes to make and to obtain an authority;
* `Environment.authorityFor_of_not_obtainable`: where it is not there, there is an error;
* `Environment.AgreeBut`: settings that differ in one name;
* **`Environment.authorityFor_alike`**: where two environments differ on the account side,
  authorities that can be obtained in both are alike.
-/

namespace AcmeClient

namespace Environment

/-- With the account key in a file, the settings describe an authority. -/
inductive Makes (v : Environment) : Value → Value → Instance → Prop where
  | intro {ms : Members} {file : Value} {key : PrivateKey} {i : Instance}
    (named : Members.find? ms "account_key" = some file)
    (read : keyOf (v.files.readValue file) = .ok key)
    (described : Instance.ofSettings ms key = .ok i) : Makes v (.object ms) file i

/-- There is an authority for the settings, or it can be made. -/
inductive Obtainable (v : Environment) (settings : Value) : Prop where
  | registered {text : String} {n : Nat} (ht : settingsText settings = .ok text)
    (h : v.registry.lookup text = some n)
  | made {text : String} {file : Value} {i : Instance} (ht : settingsText settings = .ok text)
    (h : Makes v settings file i)

variable {settings settings' file file' : Value} {v w : Environment} {i j : Instance} {text : String}

theorem Obtainable.written (h : Obtainable v settings) : ∃ text, settingsText settings = .ok text := by
  cases h with
  | registered ht => exact ⟨_, ht⟩
  | made ht => exact ⟨_, ht⟩

theorem Obtainable.makes (h : Obtainable v settings) (ht : settingsText settings = .ok text)
    (hl : v.registry.lookup text = none) : ∃ file i, Makes v settings file i := by
  cases h with
  | registered ht' hr =>
    cases ht'.symm.trans ht
    cases hl.symm.trans hr
  | made _ hm => exact ⟨_, _, hm⟩

/-- The message before an account key is read. -/
def reading (file : Value) : Log.Entry :=
  Log.info ("Reading account key from " ++ file.display)

theorem settingsMembers_object (ms : Members) : settingsMembers (.object ms) = .ok ms :=
  rfl

theorem keyFileOf_eq_ok {ms : Members} (h : Members.find? ms "account_key" = some file) :
    keyFileOf ms = .ok file := by
  rw [keyFileOf, h]

theorem say_reading (file : Value) (v : Environment) :
    say (Log.info ("Reading account key from " ++ file.display)) v =
      (.ok (), note (reading file) v) :=
  rfl

theorem makeAuthority_of_makes (h : Makes v settings file i) :
    makeAuthority text settings v = register text i (note (reading file) v) := by
  obtain @⟨ms, _, key, _, named, read, described⟩ := h
  have key_eq : readKey file (note (reading file) v) = (.ok key, note (reading file) v) := by
    rw [readKey_eq, ← read]
    rfl
  unfold makeAuthority
  rw [Action.ofExcept_bind_of_ok (settingsMembers_object ms),
    Action.ofExcept_bind_of_ok (keyFileOf_eq_ok named), Action.bind_of_ok (say_reading file v),
    Action.bind_of_ok key_eq, Action.ofExcept_bind_of_ok described]

/-- At most a message was added. -/
def Noted (v u : Environment) : Prop :=
  u = v ∨ ∃ e, u = note e v

theorem Noted.same {v u : Environment} (h : Noted v u) : u.registry = v.registry ∧
    u.instances = v.instances ∧ u.surroundings.exchanges = v.surroundings.exchanges := by
  obtain rfl | ⟨e, rfl⟩ := h
  · exact ⟨rfl, rfl, rfl⟩
  · exact ⟨rfl, rfl, rfl⟩

theorem makeAuthority_cases (text : String) (settings : Value) (v : Environment) :
    (∃ file i, Makes v settings file i) ∨
      ∃ e u, makeAuthority text settings v = (.error e, u) ∧ Noted v u := by
  cases settings with
  | object ms =>
    unfold makeAuthority
    rw [Action.ofExcept_bind_of_ok (settingsMembers_object ms)]
    cases named : Members.find? ms "account_key" with
    | none =>
      exact .inr ⟨_, v, Action.ofExcept_bind_of_error (by rw [keyFileOf, named]), .inl rfl⟩
    | some file =>
      rw [Action.ofExcept_bind_of_ok (keyFileOf_eq_ok named),
        Action.bind_of_ok (say_reading file v)]
      have key := readKey_eq file (note (reading file) v)
      have noted : Noted v (note (reading file) v) := .inr ⟨_, rfl⟩
      cases read : keyOf (v.files.readValue file) with
      | error e => exact .inr ⟨e, _, Action.bind_of_error (key.trans (congrArg (·, _) read)), noted⟩
      | ok k =>
        rw [Action.bind_of_ok (key.trans (congrArg (·, _) read))]
        cases described : Instance.ofSettings ms k with
        | error e => exact .inr ⟨e, _, Action.ofExcept_bind_of_error rfl, noted⟩
        | ok i => exact .inl ⟨file, i, named, read, described⟩
  | _ => exact .inr ⟨_, v, rfl, .inl rfl⟩

theorem authorityFor_eq (ht : settingsText settings = .ok text) :
    authorityFor settings v = match v.registry.lookup text with
      | some n => (.ok n, v)
      | none => makeAuthority text settings v := by
  rw [authorityFor, Action.ofExcept_bind_of_ok ht, Action.get_bind]
  cases v.registry.lookup text <;> rfl

theorem authorityFor_of_makes (ht : settingsText settings = .ok text)
    (hl : v.registry.lookup text = none) (h : Makes v settings file i) :
    authorityFor settings v = register text i (note (reading file) v) := by
  rw [authorityFor_eq ht, hl]
  exact makeAuthority_of_makes h

/-- An authority that can be obtained is obtained, and nothing is asked of it. -/
theorem authorityFor_of_obtainable (h : Obtainable v settings) :
    ∃ n u, authorityFor settings v = (.ok n, u) ∧
      u.surroundings.exchanges = v.surroundings.exchanges ∧ u.files = v.files := by
  obtain ⟨text, ht⟩ := h.written
  cases hl : v.registry.lookup text with
  | some n => exact ⟨n, v, by rw [authorityFor_eq ht, hl], rfl, rfl⟩
  | none =>
    obtain ⟨file, i, hi⟩ := h.makes ht hl
    exact ⟨_, _, authorityFor_of_makes ht hl hi, rfl, rfl⟩

/-- Without its authority there is an error, and nothing is asked. -/
theorem authorityFor_of_not_obtainable (h : ¬ Obtainable v settings) :
    ∃ e u, authorityFor settings v = (.error e, u) ∧
      u.surroundings.exchanges = v.surroundings.exchanges := by
  cases ht : settingsText settings with
  | error e => exact ⟨e, v, Action.ofExcept_bind_of_error ht, rfl⟩
  | ok text =>
    rw [authorityFor_eq ht]
    cases hl : v.registry.lookup text with
    | some n => exact absurd (.registered ht hl) h
    | none =>
      obtain ⟨file, i, hm⟩ | failed := makeAuthority_cases text settings v
      · exact absurd (.made ht hm) h
      · obtain ⟨e, u, h, noted⟩ := failed
        exact ⟨e, u, h, noted.same.2.2⟩

theorem isOk_iff {α : Type} {r : Except Error α} : r.isOk = true ↔ ∃ a, r = .ok a := by
  cases r <;> simp [Except.isOk, Except.toBool]

/-! ## Two environments -/

/-- Settings that differ in one name at most. -/
inductive AgreeBut (name : String) : Value → Value → Prop where
  | object {ms ns : Members} (h : ∀ l, l ≠ name → Members.find? ms l = Members.find? ns l) :
    AgreeBut name (.object ms) (.object ns)
  | refl (v : Value) : AgreeBut name v v

theorem AgreeBut.find? {name l : String} {ms ns : Members}
    (h : AgreeBut name (.object ms) (.object ns)) (hl : l ≠ name) :
    Members.find? ms l = Members.find? ns l := by
  cases h with
  | object h => exact h l hl
  | refl => rfl

theorem ofConfig_eq_ok {ms : Members} {key : PrivateKey} {c : Client} {account : Value}
    (h : Client.ofConfig ms (some key) = .ok (c, account)) :
    Members.find? ms "authority" = some c.ca := by
  unfold Client.ofConfig at h
  cases hf : Members.find? ms "authority" with
  | none =>
    rw [hf] at h
    cases h
  | some ca =>
    rw [hf] at h
    obtain ⟨_, ⟨⟩, h⟩ := Action.except_bind_eq_ok_iff.mp h
    obtain ⟨_, -, h⟩ := Action.except_bind_eq_ok_iff.mp h
    cases h
    rfl

theorem ofSettings_alike {ms ns : Members} {k k' : PrivateKey}
    (h : AgreeBut "account_url" (.object ms) (.object ns))
    (hi : Instance.ofSettings ms k = .ok i) (hj : Instance.ofSettings ns k' = .ok j) : i.Alike j := by
  unfold Instance.ofSettings at hi hj
  rw [← h.find? (by decide : "api" ≠ "account_url")] at hj
  cases hf : Members.find? ms "api" with
  | none =>
    rw [hf] at hi
    cases hi
  | some api =>
    rw [hf] at hi hj
    change (if _ then _ else _) = _ at hi hj
    split_ifs at hi hj
    · obtain ⟨⟨c, account⟩, hc, hi⟩ := Action.except_bind_eq_ok_iff.mp hi
      obtain ⟨⟨c', account'⟩, hc', hj⟩ := Action.except_bind_eq_ok_iff.mp hj
      cases hi
      cases hj
      have ca := (ofConfig_eq_ok hc).symm.trans
        ((h.find? (by decide)).trans (ofConfig_eq_ok hc'))
      exact .client (Option.some.inj ca) ⟨rfl, rfl, rfl⟩
    · cases hi
      cases hj
      exact .same _

theorem Makes.alike (h : AgreeBut "account_url" settings settings') (hi : Makes v settings file i)
    (hj : Makes w settings' file' j) : file = file' ∧ i.Alike j := by
  obtain ⟨named, -, described⟩ := hi
  obtain ⟨named', -, described'⟩ := hj
  have same := named.symm.trans ((h.find? (by decide)).trans named')
  exact ⟨Option.some.inj same, ofSettings_alike h described described'⟩

variable {X : String → Prop} {P : Value → Prop}

theorem Alike.register (h : v.Alike X P w) (hij : i.Alike j) (text text' : String) :
    (Environment.register text i v).1 = (Environment.register text' j w).1 ∧
      (Environment.register text i v).2.Alike X P (Environment.register text' j w).2 := by
  refine ⟨congrArg Except.ok h.count, h.surroundings, h.files, ?_, fun n a b ha hb => ?_⟩
  · change (v.instances ++ [i]).length = (w.instances ++ [j]).length
    rw [List.length_append, List.length_append, h.count]
    rfl
  · change (v.instances ++ [i])[n]? = some a at ha
    change (w.instances ++ [j])[n]? = some b at hb
    by_cases hn : n < v.instances.length
    · rw [List.getElem?_append_left hn] at ha
      rw [List.getElem?_append_left (h.count ▸ hn)] at hb
      exact h.instances n a b ha hb
    · rw [Nat.not_lt] at hn
      rw [List.getElem?_append_right hn, List.getElem?_singleton] at ha
      rw [List.getElem?_append_right (h.count ▸ hn), List.getElem?_singleton] at hb
      split_ifs at ha hb
      cases ha
      cases hb
      exact hij

/-- **Authorities that can be obtained are alike.** -/
theorem authorityFor_alike (h : v.Alike X P w) (agree : AgreeBut "account_url" settings settings')
    (registered : ∀ a b, settingsText settings = .ok a → settingsText settings' = .ok b →
      v.registry.lookup a = w.registry.lookup b)
    (hv : Obtainable v settings) (hw : Obtainable w settings') :
    (authorityFor settings v).1 = (authorityFor settings' w).1 ∧
      (authorityFor settings v).2.Alike X P (authorityFor settings' w).2 := by
  obtain ⟨a, ha⟩ := hv.written
  obtain ⟨b, hb⟩ := hw.written
  have lookup := registered a b ha hb
  cases hl : v.registry.lookup a with
  | some n =>
    rw [authorityFor_eq ha, authorityFor_eq hb, ← lookup, hl]
    exact ⟨rfl, h⟩
  | none =>
    have hl' := lookup.symm.trans hl
    obtain ⟨file, i, hi⟩ := hv.makes ha hl
    obtain ⟨file', j, hj⟩ := hw.makes hb hl'
    obtain ⟨rfl, alike⟩ := hi.alike agree hj
    rw [authorityFor_of_makes ha hl hi, authorityFor_of_makes hb hl' hj]
    have noted : (note (reading file) v).Alike X P (note (reading file) w) :=
      { h with surroundings := h.surroundings.note (reading file) }
    exact noted.register alike a b

end Environment

end AcmeClient
