import AcmeClient.Proofs.Client.Step

/-!
# What a client keeps

A signed request is made sure of a nonce for, sent, and perhaps sent again. What each of these
changes keeps, the whole request keeps.

* `Client.Changes`: a transitive relation that all changes for a signed request keep;
* **`Client.post_rel`**: a signed request with its repetition keeps it;
* `Client.Extends`, **`Client.Steps.extends`**: the history grows, and a directory stays known;
* `Client.Adds`, **`Client.Steps.adds`**: what the exchanges have that are added to the history.
-/

namespace AcmeClient

namespace Client

/-- From each state the changes for a signed request lead to related ones. -/
structure Changes (c : Client) (R : State → State → Prop) : Prop where
  refl : ∀ s, R s s
  trans : ∀ {s t u}, R s t → R t u → R s u
  quiet : ∀ {s t}, Quiet c s t → R s t
  spend : ∀ s : State, R s s.spending
  sent : ∀ q s, R s (exchange q s).2

section Post

variable {c : Client} {R : State → State → Prop}

theorem Changes.quiets (h : c.Changes R) {s t : State} (hs : Quiets c s t) : R s t := by
  induction hs with
  | refl => exact h.refl s
  | tail _ step ih => exact h.trans ih (h.quiet step)

theorem send_rel (h : c.Changes R) (url : Value) (accept : Option String) (content : Option Jws)
    (raw : Bool) (s : State) : R s (send url accept content raw s).2 := by
  unfold send
  cases Target.read? url.display with
  | none => exact h.refl s
  | some g => exact Action.bind_rel h.trans (h.sent _ s) fun _ t _ => h.refl t

variable (h : c.Changes R) (c) (url payload : Value) (given : Members) (raw : Bool)
  (key : Option PrivateKey) (accept : Option String)

include h

theorem spend_rel (text : String) (s : State) : R s ((do
    let nonce ← takeNonce
    let header ← Action.ofExcept (c.protect given nonce url (← Action.get).account key)
    let jws ← Action.ofExcept (sign (key.getD c.key) header text)
    let a ← send url accept (some jws) raw
    pure (header, a) : Action State (Members × Answer)) s).2 := by
  refine Action.bind_rel h.trans (h.spend s) fun nonce t _ => ?_
  refine Action.bind_rel h.trans (h.refl t) fun here t _ => ?_
  refine Action.bind_rel h.trans (h.refl t) fun header t _ => ?_
  refine Action.bind_rel h.trans (h.refl t) fun jws t _ => ?_
  exact Action.bind_rel h.trans (send_rel h url accept _ raw t) fun _ t _ => h.refl t

theorem postOnce_rel (s : State) : R s (c.postOnce url payload given raw key accept s).2 := by
  refine Action.bind_rel h.trans (h.refl s) fun text t _ => ?_
  exact Action.bind_rel h.trans (h.quiets (quiet_freshen c t)) fun _ t _ =>
    spend_rel c h url given raw key accept text t

theorem repeat_rel (header : Members) (a : Answer) (s : State) : R s ((do
    if ← Action.ofExcept (rejectsNonce a) then
      say (Log.warning ("Nonce rejected by " ++ c.ca.display ++ ", retrying request"))
      let (_, b) ← c.postOnce url payload header raw key accept
      pure b
    else pure a : Action State Answer) s).2 := by
  refine Action.bind_rel h.trans (h.refl s) fun rejected t _ => ?_
  split_ifs
  · refine Action.bind_rel h.trans (h.quiets (quiet_say c t _)) fun _ t _ => ?_
    exact Action.bind_rel h.trans (postOnce_rel c h url payload header raw key accept t)
      fun _ t _ => h.refl t
  · exact h.refl t

/-- **A signed request with its repetition keeps what every change for it keeps.** -/
theorem post_rel (s : State) : R s (c.post url payload given raw key accept s).2 :=
  Action.bind_rel h.trans (postOnce_rel c h url payload given raw key accept s)
    fun p t _ => repeat_rel c h url payload raw key accept p.1 p.2 t

end Post

/-! ## The account -/

theorem account_change (c : Client) : c.Changes fun s t => t.account = s.account where
  refl _ := rfl
  trans h h' := h'.trans h
  quiet h := h.account_eq
  spend _ := rfl
  sent := account_exchange

/-! ## History and directory -/

/-- The history has grown, and a directory stays known. -/
structure Extends (s t : State) : Prop where
  history : s.history <+: t.history
  directory : ∀ ms, s.directory = some ms → t.directory = some ms

variable {c : Client} {P : Draft → Prop} {s t u : State}

theorem Extends.of_eq (hd : t.directory = s.directory) (hh : t.history = s.history) :
    Extends s t where
  history := hh.symm ▸ List.prefix_rfl
  directory _ h := hd.trans h

theorem Extends.trans (h : Extends s t) (h' : Extends t u) : Extends s u :=
  ⟨h.history.trans h'.history, fun ms hm => h'.directory ms (h.directory ms hm)⟩

theorem extends_bind {α β : Type} {x : Action State α} {f : α → Action State β}
    (hx : Extends s (x s).2) (hf : ∀ a t, Extends t (f a t).2) : Extends s ((x >>= f) s).2 :=
  Action.bind_rel Extends.trans hx fun a t _ => hf a t

theorem extends_exchange (q : Request) (s : State) : Extends s (exchange q s).2 where
  history := ⟨[s.made q], (history_exchange q s).symm⟩
  directory _ h := (directory_exchange q s).trans h

theorem Quiet.extends (h : Quiet c s t) : Extends s t := by
  cases h with
  | say => exact .of_eq rfl rfl
  | ask q _ => exact extends_exchange q s
  | learn ms unknown _ =>
    refine ⟨List.prefix_rfl, fun ns known => ?_⟩
    rw [unknown] at known
    cases known

theorem extends_change (c : Client) : c.Changes Extends where
  refl _ := .of_eq rfl rfl
  trans := Extends.trans
  quiet h := h.extends
  spend _ := .of_eq rfl rfl
  sent := extends_exchange

theorem Step.extends (h : Step c P s t) : Extends s t := by
  have change := extends_change c
  cases h with
  | quiet h => exact h.extends
  | waste => exact change.spend s
  | surround w h => exact .of_eq rfl h
  | settle => exact .of_eq rfl rfl
  | @post w q j d _ _ written =>
    have fresh := change.quiets (quiets_of_freshen written.fresh)
    exact change.trans (change.trans fresh (change.spend w)) (change.sent q _)

/-- **Whatever a client does, its history grows, and a directory stays known.** -/
theorem Steps.extends (h : Steps c P s t) : Extends s t := by
  induction h with
  | refl => exact .of_eq rfl rfl
  | tail _ step ih => exact ih.trans step.extends

/-! ## Exchanges -/

/-- All exchanges that are added to the history have the property `Q`. -/
def Adds (Q : Exchange → Prop) (s t : State) : Prop :=
  ∃ new, t.history = s.history ++ new ∧ ∀ e ∈ new, Q e

variable {Q : Exchange → Prop}

theorem Adds.of_eq (h : t.history = s.history) : Adds Q s t :=
  ⟨[], h.trans (List.append_nil _).symm, nofun⟩

theorem Adds.trans (h : Adds Q s t) (h' : Adds Q t u) : Adds Q s u := by
  obtain ⟨new, hn, all⟩ := h
  obtain ⟨new', hn', all'⟩ := h'
  refine ⟨new ++ new', by rw [hn', hn, List.append_assoc], fun e he => ?_⟩
  exact (List.mem_append.mp he).elim (all e) (all' e)

theorem Quiets.adds (h : Quiets c s t) (unsigned : ∀ e, e.request.content = none → Q e) :
    Adds Q s t := by
  obtain ⟨new, hn, all⟩ := h.history_eq
  exact ⟨new, hn, fun e he => unsigned e (all e he)⟩

theorem Step.adds (h : Step c P s t) (unsigned : ∀ e, e.request.content = none → Q e)
    (signed : ∀ {w q j} d, P d → d.Fits s → d.Written c s w q j → Q (w.spending.made q)) :
    Adds Q s t := by
  cases h with
  | quiet h => exact Quiets.adds (.single h) unsigned
  | waste => exact .of_eq rfl
  | surround w h => exact .of_eq h
  | settle => exact .of_eq rfl
  | @post w q j d hd fits written =>
    refine (quiets_of_freshen written.fresh).adds unsigned |>.trans ?_
    exact ⟨[w.spending.made q], history_exchange q w.spending,
      fun e he => List.mem_singleton.mp he ▸ signed d hd fits written⟩

/-- **What unsigned requests have, and all signed ones that are permitted, all exchanges have.** -/
theorem Steps.adds (h : Steps c P s t) (unsigned : ∀ e, e.request.content = none → Q e)
    (signed : ∀ {s w q j} d, P d → d.Written c s w q j → Q (w.spending.made q)) : Adds Q s t := by
  induction h with
  | refl => exact .of_eq rfl
  | tail _ step ih => exact ih.trans (step.adds unsigned fun d hd _ => signed d hd)

end Client

end AcmeClient
