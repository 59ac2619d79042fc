import AcmeClient.Action
import AcmeClient.Surroundings
import AcmeClient.Proofs.Action

/-!
# Runs that agree

Two runs in surroundings that differ in the replies of some addresses do the same as long as the
first one asks nothing of these addresses.

* `Surroundings.Alike`: surroundings that differ in the replies of some addresses;
* `Surroundings.Alike.exchange`: they stay alike where another address is asked;
* `Spares`, `Carries`: what was not asked and what was sent since then;
* `Action.Agrees`: an action that asks nothing of these addresses does what another one does;
* **`Action.Agrees.bind`**: actions in a row agree where the single ones do.
-/

namespace AcmeClient

/-! ## Surroundings -/

section Routes

variable {α : Type} (url u : String) (r : Routes α)

theorem Routes.next_fst : (r.next url).1 = (r.lookup url).bind List.head? := by
  induction r with
  | nil => rfl
  | cons p r ih =>
    obtain ⟨v, rs⟩ := p
    rw [Routes.next, List.lookup_cons]
    by_cases h : v = url
    · rw [if_pos h, h, beq_self_eq_true]
      rfl
    · rw [if_neg h, beq_false_of_ne (Ne.symm h)]
      exact ih

theorem Routes.lookup_next :
    (r.next url).2.lookup u = if u = url then (r.lookup u).map Routes.rest else r.lookup u := by
  induction r with
  | nil => simp [Routes.next]
  | cons p r ih =>
    obtain ⟨v, rs⟩ := p
    rw [Routes.next]
    by_cases h : v = url
    · subst h
      rw [if_pos rfl, List.lookup_cons, List.lookup_cons]
      by_cases hu : u = v
      · rw [if_pos hu, hu, beq_self_eq_true]
        rfl
      · rw [if_neg hu, beq_false_of_ne hu]
    · rw [if_neg h, List.lookup_cons, List.lookup_cons, ih]
      by_cases hu : u = v
      · subst hu
        rw [if_neg h, beq_self_eq_true, if_neg h]
      · rw [beq_false_of_ne hu]

end Routes

variable {X : String → Prop}

/-- Surroundings that are the same, except for the replies to come at the addresses in `X`. -/
structure Surroundings.Alike (X : String → Prop) (s t : Surroundings) : Prop where
  clock : s.clock = t.clock
  exchanges : s.exchanges = t.exchanges
  log : s.log = t.log
  routes : ∀ u, ¬ X u → s.routes.lookup u = t.routes.lookup u

namespace Surroundings

variable {s t : Surroundings}

theorem Alike.note (h : s.Alike X t) (e : Log.Entry) : (s.note e).Alike X (t.note e) :=
  { h with log := congrArg (· ++ [e]) h.log }

theorem exchanges_exchange (q : Request) (s : Surroundings) :
    (s.exchange q).2.exchanges = s.exchanges ++ [⟨q, (s.exchange q).1, s.clock⟩] :=
  rfl

/-- **Surroundings stay alike where another address is asked.** -/
theorem Alike.exchange (h : s.Alike X t) (q : Request) (hq : ¬ X q.url) :
    (s.exchange q).1 = (t.exchange q).1 ∧ (s.exchange q).2.Alike X (t.exchange q).2 := by
  have reply : (s.exchange q).1 = (t.exchange q).1 := by
    change (s.routes.next q.url).1.getD _ = (t.routes.next q.url).1.getD _
    rw [Routes.next_fst, Routes.next_fst, h.routes q.url hq]
  refine ⟨reply, h.clock, ?_, h.log, fun u hu => ?_⟩
  · rw [exchanges_exchange, exchanges_exchange, reply, h.exchanges, h.clock]
  · change (s.routes.next q.url).2.lookup u = (t.routes.next q.url).2.lookup u
    rw [Routes.lookup_next, Routes.lookup_next, h.routes u hu]

end Surroundings

/-! ## Actions -/

/-- From the exchanges `l` to the exchanges `m`, nothing was asked of the addresses in `X`. -/
def Spares (X : String → Prop) (l m : List Exchange) : Prop :=
  ∀ e ∈ m.drop l.length, ¬ X e.request.url

/-- From the exchanges `l` to the exchanges `m`, signed requests carried permitted contents. -/
def Carries (Q : Jws → Prop) (l m : List Exchange) : Prop :=
  ∃ new, m = l ++ new ∧ ∀ e ∈ new, ∀ j, e.request.content = some j → Q j

variable {Q : Jws → Prop} {l m n : List Exchange}

theorem spares_append {new : List Exchange} :
    Spares X l (l ++ new) ↔ ∀ e ∈ new, ¬ X e.request.url := by
  rw [Spares, List.drop_left]

theorem Carries.refl (l : List Exchange) : Carries Q l l :=
  ⟨[], (List.append_nil l).symm, nofun⟩

theorem Carries.trans (h : Carries Q l m) (h' : Carries Q m n) : Carries Q l n := by
  obtain ⟨new, rfl, hq⟩ := h
  obtain ⟨new', rfl, hq'⟩ := h'
  refine ⟨new ++ new', List.append_assoc .., fun e he => ?_⟩
  rcases List.mem_append.mp he with he | he
  · exact hq e he
  · exact hq' e he

theorem Carries.mono {Q' : Jws → Prop} (h : Carries Q l m) (hq : ∀ j, Q j → Q' j) :
    Carries Q' l m := by
  obtain ⟨new, hm, carried⟩ := h
  exact ⟨new, hm, fun e he j hj => hq j (carried e he j hj)⟩

theorem Spares.parts (h : Spares X l n) (hm : Carries Q l m) (hn : Carries Q m n) :
    Spares X l m ∧ Spares X m n := by
  obtain ⟨new, rfl, -⟩ := hm
  obtain ⟨new', rfl, -⟩ := hn
  rw [List.append_assoc, spares_append] at h
  rw [spares_append, spares_append]
  exact ⟨fun e he => h e (List.mem_append_left _ he), fun e he => h e (List.mem_append_right _ he)⟩

namespace Action

variable {σ τ α β : Type}

/-- The first action makes signed requests with permitted contents only; where it asks nothing of
the addresses in `X`, it does what the second one does in a related state. -/
structure Agrees (X : String → Prop) (Q : Jws → Prop) (exchanges : σ → List Exchange)
    (R : σ → τ → Prop) (x : Action σ α) (y : Action τ α) : Prop where
  carries : ∀ s, Carries Q (exchanges s) (exchanges (x s).2)
  same : ∀ s t, R s t → Spares X (exchanges s) (exchanges (x s).2) →
    (x s).1 = (y t).1 ∧ R (x s).2 (y t).2

variable {exchanges : σ → List Exchange} {R : σ → τ → Prop} {x : Action σ α} {y : Action τ α}
  {f : α → Action σ β} {g : α → Action τ β}

/-- **Actions in a row agree where the single ones do.** -/
theorem Agrees.bind (hx : Agrees X Q exchanges R x y)
    (hf : ∀ a, Agrees X Q exchanges R (f a) (g a)) :
    Agrees X Q exchanges R (x >>= f) (y >>= g) where
  carries s := by
    have first := hx.carries s
    rcases h : x s with ⟨e | a, u⟩
    · rw [h] at first
      rw [bind_of_error h]
      exact first
    · rw [h] at first
      rw [bind_of_ok h]
      exact first.trans ((hf a).carries u)
  same s t hR spares := by
    have first := hx.carries s
    have hy := hx.same s t hR
    rcases h : x s with ⟨e | a, u⟩
    · rw [h] at hy
      rw [bind_of_error h] at spares ⊢
      obtain ⟨result, state⟩ := hy spares
      rw [bind_of_error (Prod.ext result.symm rfl)]
      exact ⟨rfl, state⟩
    · rw [h] at first hy
      rw [bind_of_ok h] at spares ⊢
      obtain ⟨before, after⟩ := spares.parts first ((hf a).carries u)
      obtain ⟨result, state⟩ := hy before
      rw [bind_of_ok (Prod.ext result.symm rfl)]
      exact (hf a).same u _ state after

theorem Agrees.mono {Q' : Jws → Prop} (hx : Agrees X Q exchanges R x y) (hq : ∀ j, Q j → Q' j) :
    Agrees X Q' exchanges R x y where
  carries s := (hx.carries s).mono hq
  same := hx.same

theorem agrees_ofExcept (r : Except Error α) :
    Agrees X Q exchanges R (ofExcept r) (ofExcept r) where
  carries _ := .refl _
  same _ _ h _ := ⟨rfl, h⟩

theorem agrees_pure (a : α) : Agrees X Q exchanges R (Pure.pure a) (Pure.pure a) :=
  agrees_ofExcept (.ok a)

theorem agrees_fail (e : Error) : Agrees X Q exchanges R (fail e : Action σ α) (fail e) :=
  agrees_ofExcept (.error e)

theorem Agrees.ofExcept_bind {r : Except Error α}
    (hf : ∀ a, r = .ok a → Agrees X Q exchanges R (f a) (g a)) :
    Agrees X Q exchanges R (ofExcept r >>= f) (ofExcept r >>= g) := by
  cases r with
  | error e => exact agrees_fail e
  | ok a => exact hf a rfl

theorem agrees_modify {f : σ → σ} {g : τ → τ} (hf : ∀ s, exchanges (f s) = exchanges s)
    (h : ∀ s t, R s t → R (f s) (g t)) : Agrees X Q exchanges R (modify f) (modify g) where
  carries s := (hf s).symm ▸ .refl (exchanges s)
  same s t hR _ := ⟨rfl, h s t hR⟩

theorem Agrees.of_read {γ : Type} {f : γ → Action σ α} {g : γ → Action τ α} (p : σ → γ) (q : τ → γ)
    (read : ∀ s t, R s t → p s = q t) (h : ∀ c, Agrees X Q exchanges R (f c) (g c))
    (hx : ∀ s, x s = f (p s) s) (hy : ∀ t, y t = g (q t) t) : Agrees X Q exchanges R x y where
  carries s := by
    rw [hx]
    exact (h (p s)).carries s
  same s t hR spares := by
    rw [hx] at spares ⊢
    rw [hy, ← read s t hR]
    exact (h (p s)).same s t hR spares

end Action

end AcmeClient
