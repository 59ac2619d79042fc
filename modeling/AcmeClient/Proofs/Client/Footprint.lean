import AcmeClient.Proofs.Client.Step
import AcmeClient.Revocation

/-!
# The addresses that a client asks

Without its account a client asks for the directory, and at the addresses of nonces and revocations
that the directory gives.

* `Client.addresses`: these addresses, as far as the directory is known;
* `Client.Consults`: nothing else is asked from one state to another;
* `Client.consults_directory`, `Client.consults_freshen`: directories and nonces are asked for
  there;
* **`Client.asks_sendSigned`**: so is all that a request needs that is signed with a key of its own.
-/

namespace AcmeClient

namespace Client

/-- The address that requests for a value go to. -/
def target? (url : Value) : Option String :=
  (Target.read? url.display).map Target.text

/-- The resources that a client uses without its account. -/
def accountless : List String :=
  ["newNonce", Revocation.resource]

/-- The addresses of the directory and, as far as it is known, of the resources in it that a client
uses without its account. -/
def addresses (c : Client) (directory : Option Members) : List String :=
  (c.directoryUrl.toOption.toList ++
    directory.toList.flatMap fun ms => accountless.map (Members.get ms)).filterMap target?

/-- Requests for a value go to one of these addresses. -/
def Offers (c : Client) (directory : Option Members) (url : Value) : Prop :=
  ∀ t, target? url = some t → t ∈ c.addresses directory

variable {c : Client} {d d' : Option Members} {url : Value}

theorem offers_directory (h : c.directoryUrl = .ok url) : c.Offers d url := fun t ht =>
  List.mem_filterMap.mpr ⟨url, List.mem_append_left _ (by simp [h, Except.toOption]), ht⟩

theorem offers_resource {ms : Members} {name : String} (h : name ∈ accountless) :
    c.Offers (some ms) (Members.get ms name) := fun t ht =>
  List.mem_filterMap.mpr ⟨_, List.mem_append_right _ (by simpa using ⟨name, h, rfl⟩), ht⟩

theorem addresses_subset (h : ∀ ms, d = some ms → d' = some ms) :
    c.addresses d ⊆ c.addresses d' := by
  cases d with
  | some ms =>
    rw [h ms rfl]
    exact List.Subset.refl _
  | none =>
    refine List.filterMap_subset target? ?_
    simp

theorem Offers.mono (h : c.Offers d url) (hd : ∀ ms, d = some ms → d' = some ms) :
    c.Offers d' url :=
  fun t ht => addresses_subset hd (h t ht)

/-- From one state to another, only these addresses are asked; a directory stays known. -/
structure Consults (c : Client) (s t : State) : Prop where
  known : ∀ ms, s.directory = some ms → t.directory = some ms
  asked : ∃ new, t.history = s.history ++ new ∧
    ∀ e ∈ new, e.request.url ∈ c.addresses t.directory

variable {s t u : State}

theorem consults_of_eq (hd : t.directory = s.directory) (hh : t.history = s.history) :
    Consults c s t :=
  ⟨fun _ h => hd.trans h, [], hh.trans (List.append_nil _).symm, nofun⟩

theorem Consults.refl (c : Client) (s : State) : Consults c s s :=
  consults_of_eq rfl rfl

theorem Consults.trans (h : Consults c s t) (h' : Consults c t u) : Consults c s u := by
  obtain ⟨known, new, hn, asked⟩ := h
  obtain ⟨known', new', hn', asked'⟩ := h'
  refine ⟨fun ms hm => known' ms (known ms hm), new ++ new', ?_, fun e he => ?_⟩
  · rw [hn', hn, List.append_assoc]
  · rcases List.mem_append.mp he with he | he
    · exact addresses_subset known' (asked e he)
    · exact asked' e he

/-! ## What is asked -/

variable {α β : Type}

/-- An action that may be used with an address on offer. -/
def Asks (c : Client) (url : Value) (x : Action State α) : Prop :=
  ∀ s, c.Offers s.directory url → Consults c s (x s).2

variable {x : Action State α} {f : α → Action State β}

theorem Asks.bind (hx : Asks c url x) (hf : ∀ a, Asks c url (f a)) : Asks c url (x >>= f) := by
  intro s h
  have first := hx s h
  refine Action.bind_rel Consults.trans first fun a t ht => ?_
  rw [ht] at first
  exact hf a t (h.mono first.known)

theorem asks_ofExcept (r : Except Error α) : Asks c url (Action.ofExcept r) :=
  fun s _ => .refl c s

theorem consults_say (e : Log.Entry) (s : State) : Consults c s (say e s).2 :=
  consults_of_eq rfl rfl

theorem consults_exchange {q : Request} (h : q.url ∈ c.addresses s.directory) :
    Consults c s (exchange q s).2 where
  known _ hm := (directory_exchange q s).trans hm
  asked := ⟨[s.made q], history_exchange q s, by simpa using h⟩

theorem asks_send (accept : Option String) (content : Option Jws) (raw : Bool) :
    Asks c url (send url accept content raw) := by
  intro s h
  unfold send
  cases ht : Target.read? url.display with
  | none => exact .refl c s
  | some t =>
    have offered : t.text ∈ c.addresses s.directory := h t.text (by rw [target?, ht]; rfl)
    exact Action.bind_rel Consults.trans (consults_exchange offered) fun _ u _ => .refl c u

theorem directory_fetch (url : Value) (s : State) : (fetch url s).2.directory = s.directory := by
  obtain ⟨-, h⟩ | ⟨t, -, h⟩ := fetch_cases s url
  · rw [h]
  · rw [h, directory_exchange]

theorem consults_keepDirectory (a : Answer) (unknown : s.directory = none) :
    Consults c s (c.keepDirectory a s).2 := by
  have refused : Consults c s (c.refuseDirectory a s).2 :=
    Action.bind_rel Consults.trans (consults_say _ s) fun _ t _ => .refl c t
  unfold keepDirectory
  cases a.body with
  | object ms =>
    dsimp only
    split_ifs
    · exact refused
    · refine ⟨fun ms' h => ?_, [], (List.append_nil _).symm, nofun⟩
      rw [unknown] at h
      cases h
  | _ => exact refused

theorem consults_directory (c : Client) (s : State) : Consults c s (c.directory s).2 := by
  rw [directory_eq]
  cases hd : s.directory with
  | some ms => exact .refl c s
  | none =>
    refine Action.bind_rel Consults.trans (.refl c s) fun url t ht => ?_
    obtain ⟨hu, rfl⟩ : c.directoryUrl = .ok url ∧ s = t := Prod.mk.inj ht
    refine Action.bind_rel Consults.trans (asks_send none none false s (offers_directory hu))
      fun a t ht => consults_keepDirectory a ?_
    rw [← hd, ← directory_fetch url s]
    exact congrArg (fun p => p.2.directory) ht.symm

theorem directory_of_keepDirectory {a : Answer} {ms : Members}
    (h : c.keepDirectory a s = (.ok ms, t)) : t.directory = some ms := by
  have refused : c.refuseDirectory a s ≠ (.ok ms, t) := by
    intro hr
    obtain ⟨_, _, -, hr⟩ := Action.bind_eq_ok_iff.mp hr
    obtain ⟨e, he⟩ := Problem.exists_reject (α := Members) "Could not retrieve directory"
      (.int a.code) a.body
    cases he.symm.trans (congrArg Prod.fst hr)
  unfold keepDirectory at h
  cases hb : a.body with
  | object ms' =>
    rw [hb] at h
    dsimp only at h
    split_ifs at h
    · exact absurd h refused
    · cases h
      rfl
  | _ =>
    rw [hb] at h
    exact absurd h refused

theorem directory_of_directory {ms : Members} (h : c.directory s = (.ok ms, t)) :
    t.directory = some ms := by
  rw [directory_eq] at h
  cases hd : s.directory with
  | some ms' =>
    rw [hd] at h
    cases h
    exact hd
  | none =>
    rw [hd] at h
    obtain ⟨_, _, -, h⟩ := Action.bind_eq_ok_iff.mp h
    obtain ⟨_, _, -, h⟩ := Action.bind_eq_ok_iff.mp h
    exact directory_of_keepDirectory h

theorem offers_of_resourceUrl? {name : String} (hn : name ∈ accountless)
    (h : c.resourceUrl? name s = (.ok url, t)) : c.Offers t.directory url := by
  obtain ⟨ms, u, hd, h⟩ := Action.bind_eq_ok_iff.mp h
  cases h
  rw [directory_of_directory hd]
  exact offers_resource hn

theorem consults_resourceUrl? (name : String) (s : State) :
    Consults c s (c.resourceUrl? name s).2 :=
  Action.bind_rel Consults.trans (consults_directory c s) fun _ t _ => .refl c t

theorem consults_resourceUrl (name : String) (s : State) :
    Consults c s (c.resourceUrl name s).2 := by
  refine Action.bind_rel Consults.trans (consults_resourceUrl? name s) fun v t _ => ?_
  cases v <;> exact .refl c t

theorem offers_of_resourceUrl {name : String} (hn : name ∈ accountless)
    (h : c.resourceUrl name s = (.ok url, t)) : c.Offers t.directory url := by
  obtain ⟨v, u, hv, h⟩ := Action.bind_eq_ok_iff.mp h
  have offered := offers_of_resourceUrl? hn hv
  cases v <;> cases h <;> exact offered

theorem consults_freshen (c : Client) (s : State) : Consults c s (c.freshen s).2 := by
  rw [freshen_eq]
  split_ifs
  · refine Action.bind_rel Consults.trans (consults_resourceUrl _ s) fun url t ht => ?_
    have offered := offers_of_resourceUrl (by decide) ht
    exact Action.bind_rel Consults.trans (asks_send none none false t offered) fun _ u _ =>
      .refl c u
  · exact .refl c s

theorem asks_postOnce (payload : Value) (given : Members) (raw : Bool) (key : Option PrivateKey)
    (accept : Option String) : Asks c url (c.postOnce url payload given raw key accept) := by
  have taken : Asks c url takeNonce := fun s _ => consults_of_eq rfl rfl
  refine (asks_ofExcept _).bind fun text => Asks.bind (fun s _ => consults_freshen c s) fun _ =>
    taken.bind fun nonce s h => ?_
  rw [Action.get_bind]
  exact ((asks_ofExcept _).bind fun header => (asks_ofExcept _).bind fun jws =>
    (asks_send accept (some jws) raw).bind fun a => asks_ofExcept (.ok (header, a))) s h

theorem asks_post (payload : Value) (given : Members) (raw : Bool) (key : Option PrivateKey)
    (accept : Option String) : Asks c url (c.post url payload given raw key accept) := by
  have posted (given : Members) : Asks c url (c.postOnce url payload given raw key accept) :=
    asks_postOnce payload given raw key accept
  refine (posted given).bind fun p => (asks_ofExcept _).bind fun again => ?_
  cases again with
  | false => exact asks_ofExcept (.ok p.2)
  | true =>
    exact Asks.bind (fun s _ => consults_say _ s) fun _ => (posted p.1).bind fun q =>
      asks_ofExcept (.ok q.2)

/-- **A request with a key of its own asks for nothing of the account.** -/
theorem asks_sendSigned (payload : Value) (k : PrivateKey) :
    Asks c url (c.sendSigned url payload (some k)) :=
  (asks_post payload [] false (some k) none).bind fun _ => asks_ofExcept _

end Client

end AcmeClient
