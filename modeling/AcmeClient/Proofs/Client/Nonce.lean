import Mathlib.Data.List.Nodup
import AcmeClient.Proofs.Client.Directory

/-!
# Nonces

RFC 8555, section 6.5: a nonce is received in a reply and spent in one signed request.

* `Client.Tracked`: the nonces that were spent, with the one in the memory, are among those
  received, in the same order, and the one in the memory is the latest;
* **`Client.spent_once`**: no nonce is spent twice, and every nonce that is spent is the latest one.
-/

namespace AcmeClient

namespace Client

/-- The nonce in the memory, which is not spent yet. -/
def State.unspent (s : State) : List Value :=
  match s.nonce with
  | .null => []
  | v => [v]

/-- What the memory knows about nonces is what the history tells. -/
structure Tracked (s : State) : Prop where
  order : (s.history.spent ++ s.unspent).Sublist s.history.received
  latest : s.nonce ≠ .null → ∃ r, s.history.lastCarrier = some r ∧ r.nonce? = some s.nonce ∧
    r.time = s.nonceTime

section Tracked

variable {c : Client} {P : Draft → Prop} {s t w : State} {q : Request}

theorem unspent_of_null (h : s.nonce = .null) : s.unspent = [] := by
  rw [State.unspent, h]

theorem unspent_congr (h : t.nonce = s.nonce) : t.unspent = s.unspent := by
  rw [State.unspent, State.unspent, h]

theorem unspent_sublist {v : Value} (h : s.nonce = v) : s.unspent.Sublist [v] := by
  unfold State.unspent
  split
  · exact List.nil_sublist _
  · rw [h]

/-- An exchange keeps track if the nonce that it spends is not in the memory any more. -/
theorem tracked_exchange
    (order :
      (s.history.spent ++ ((s.made q).spent?.toList ++ s.unspent)).Sublist s.history.received)
    (latest : s.nonce ≠ .null → ∃ r, s.history.lastCarrier = some r ∧ r.nonce? = some s.nonce ∧
      r.time = s.nonceTime) : Tracked (exchange q s).2 := by
  cases hn : (s.made q).nonce? with
  | none =>
    obtain ⟨nonce, time⟩ := nonce_exchange_of_none q s hn
    constructor
    · rw [history_exchange, History.spent_concat, History.received_concat, hn, List.append_assoc,
        unspent_congr nonce, Option.toList_none, List.append_nil]
      exact order
    · rw [history_exchange, History.lastCarrier_concat, hn, nonce, time]
      exact latest
  | some v =>
    obtain ⟨nonce, time⟩ := nonce_exchange_of_some q s hn
    constructor
    · rw [history_exchange, History.spent_concat, History.received_concat, hn]
      refine List.Sublist.append (List.Sublist.trans ?_ order) (unspent_sublist nonce)
      rw [← List.append_assoc]
      exact List.sublist_append_left _ _
    · intro _
      refine ⟨s.made q, ?_, by rw [nonce, hn], by rw [time, made_time]⟩
      rw [history_exchange, History.lastCarrier_concat, hn]
      rfl

theorem Tracked.quiet (h : Quiet c s t) (hs : Tracked s) : Tracked t := by
  cases h with
  | ask q hq =>
    refine tracked_exchange ?_ hs.latest
    rw [Exchange.spent?_of_unsigned hq]
    exact hs.order
  | say | learn => exact ⟨hs.order, hs.latest⟩

theorem Tracked.quiets (h : Quiets c s t) (hs : Tracked s) : Tracked t := by
  induction h with
  | refl => exact hs
  | tail _ step ih => exact ih.quiet step

theorem Tracked.fresh (h : c.freshen s = (.ok (), w)) (hs : Tracked s) : Tracked w :=
  hs.quiets (quiets_of_freshen h)

theorem Tracked.spending (hs : Tracked s) : Tracked s.spending := by
  refine ⟨?_, fun h => absurd rfl h⟩
  rw [unspent_of_null rfl, List.append_nil]
  exact (List.sublist_append_left _ _).trans hs.order

theorem Draft.Written.spent {d : Draft} {j : Jws} (h : d.Written c s w q j) :
    j.nonce = w.nonce ∧ (w.spending.made q).spent?.toList = w.unspent := by
  have nonce : j.nonce = w.nonce := by
    unfold Jws.nonce
    rw [h.header, Draft.nonce_of_header]
  refine ⟨nonce, ?_⟩
  rw [Exchange.spent?, made_request, h.content]
  dsimp only
  rw [nonce, State.unspent]
  cases w.nonce <;> rfl

theorem Tracked.step (h : Step c P s t) (hs : Tracked s) : Tracked t := by
  cases h with
  | quiet h => exact hs.quiet h
  | waste => exact hs.spending
  | surround w h =>
    constructor
    · change (History.spent w.exchanges ++ s.unspent).Sublist (History.received w.exchanges)
      rw [h]
      exact hs.order
    · change s.nonce ≠ .null → ∃ r, History.lastCarrier w.exchanges = some r ∧ _
      rw [h]
      exact hs.latest
  | settle v _ _ => exact ⟨hs.order, hs.latest⟩
  | @post w q j d _ _ hw =>
    have fresh := hs.fresh hw.fresh
    refine tracked_exchange ?_ fun h => absurd rfl h
    rw [hw.spent.2, unspent_of_null (s := w.spending) rfl, List.append_nil]
    exact fresh.order

theorem tracked_start (account : Value) (clock : Int) (routes : Routes Reply) :
    Tracked (.start account clock routes) :=
  ⟨.slnil, fun h => absurd rfl h⟩

/-- **Every nonce that is spent is the one of the latest reply that carried one.** -/
theorem spends_latest (h : Steps c P s t) (hs : Tracked s)
    (latest : s.history.Always fun before e =>
      ∀ v, e.spent? = some v → ∃ r, before.lastCarrier = some r ∧ r.nonce? = some v) :
    Tracked t ∧ t.history.Always fun before e =>
      ∀ v, e.spent? = some v → ∃ r, before.lastCarrier = some r ∧ r.nonce? = some v := by
  refine h.always (fun step hs => hs.step step) ?_ ?_ hs latest
  · intro es e he v hv
    rw [Exchange.spent?_of_unsigned he] at hv
    cases hv
  · intro s w q j d hs _ _ hw v hv
    obtain ⟨nonce, spent⟩ := hw.spent
    obtain ⟨j', hj', hn, hv⟩ := Exchange.spent?_eq_some_iff.mp hv
    obtain rfl : j = j' := Option.some.inj (hw.content.symm.trans hj')
    rw [nonce] at hn
    obtain ⟨r, hr, hrn, -⟩ := (hs.fresh hw.fresh).latest (hn ▸ hv)
    exact ⟨r, hr, hn ▸ hrn⟩

end Tracked

/-- **No nonce is spent twice: where the nonces that a client receives are distinct, so are those
that it spends. Each of them is the nonce of the latest reply that carried one.** -/
theorem spent_once (c : Client) (account : Value) (clock : Int) (routes : Routes Reply)
    (ops : List Operation)
    (distinct : (c.run ops (.start account clock routes)).history.received.Nodup) :
    (c.run ops (.start account clock routes)).history.spent.Nodup ∧
    (c.run ops (.start account clock routes)).history.Always fun before e =>
      ∀ v, e.spent? = some v → ∃ r, before.lastCarrier = some r ∧ r.nonce? = some v := by
  obtain ⟨tracked, latest⟩ := spends_latest (steps_run c (.start account clock routes) ops)
    (tracked_start account clock routes) History.always_nil
  refine ⟨?_, latest⟩
  exact distinct.sublist ((List.sublist_append_left _ _).trans tracked.order)

/-- Two signed requests, with the nonce of a fetched document and with that of the reply. -/
theorem spent_once_twice :
    let es := (sample.run [.requestResource "https://ca/a",
      .sendSigned (.text "https://ca/a") .null none,
      .sendSigned (.text "https://ca/a") .null none] (.start (.text "https://ca/1") 0
        [("https://ca/a", [sampleReply "n1", sampleReply "n2", sampleReply none])])).history
    es.received.Nodup ∧ es.spent.map Value.display = ["n1", "n2"] ∧ es.spent.Nodup := by
  intro es
  have distinct : es.received.Nodup := List.Nodup.of_map Value.display (by decide +kernel)
  exact ⟨distinct, by decide +kernel, (spent_once _ _ _ _ _ distinct).1⟩

/-! ## Usable nonces -/

/-- The nonce of the latest reply that carried one is usable: it is there, and not too old. -/
def Usable (es : History) (v : Value) (now : Int) : Prop :=
  v ≠ .null ∧ ∃ r, es.lastCarrier = some r ∧ r.nonce? = some v ∧ now ≤ r.time + nonceAge

/-- Making sure of a nonce in the state `s` has led to the history `es` and to a usable nonce: the
latest of the replies since then that carried a nonce carried one that is not null, or none of them
carried a nonce and there was a usable one before. -/
def Obtained (s : State) (es : History) : Prop :=
  match History.lastCarrier (es.drop s.history.length) with
  | some r => r.nonce? ≠ some .null
  | none => s.nonce ≠ .null ∧ s.surroundings.clock ≤ s.nonceTime + nonceAge

/-- The errors that getting a nonce can end with though they do not report a failure of the
authority or of its data. -/
inductive Astray : Error → Prop
  | address : Astray (.plain .wrongType "address is no text")
  | target : Astray Url.malformed
  | octets : Astray (.plain .undecodable "not a text")
  | digits : Astray Json.Fault.longInteger.error
  | depth : Astray Json.Fault.deep.error

section Usable

variable {c : Client} {s w : State}

/-- **The nonce after making sure of one is usable exactly if one was obtained.** -/
theorem usable_iff (hs : Tracked s) (h : c.freshen s = (.ok (), w)) :
    Usable w.history w.nonce w.surroundings.clock ↔ Obtained s w.history := by
  have quiets := quiets_of_freshen h
  have clock : w.surroundings.clock = s.surroundings.clock := quiets.clock_eq
  obtain ⟨new, hnew, hc⟩ := quiets.nonce_eq
  have dropped : w.history.drop s.history.length = new := by
    rw [hnew, List.drop_left]
  unfold Usable Obtained
  rw [dropped, hnew, History.lastCarrier_append, clock]
  rcases hc with ⟨hc, nonce, time⟩ | ⟨r, hr, nonce, time, now⟩
  · rw [hc, nonce, Option.none_or]
    refine and_congr_right fun hn => ?_
    obtain ⟨r, hr, hrn, hrt⟩ := hs.latest hn
    constructor
    · rintro ⟨r', hr', -, hle⟩
      obtain rfl : r = r' := Option.some.inj (hr.symm.trans hr')
      omega
    · exact fun hle => ⟨r, hr, hrn, by omega⟩
  · rw [hr, Option.some_or]
    constructor
    · rintro ⟨hn, -⟩
      change r.nonce? ≠ some .null
      rw [nonce]
      exact fun h => hn (Option.some.inj h)
    · intro hn
      refine ⟨fun h => hn (by rw [nonce, h]), r, rfl, nonce, ?_⟩
      rw [time, now]
      unfold nonceAge
      omega

theorem content_error {b : Octets} {e : Error} (h : Answer.content b = .error e) :
    e.isOwn = true ∨ Astray e := by
  have reads := readsAs_content b
  rw [h] at reads
  cases reads with
  | undecodable => exact .inr .octets
  | garbage => exact .inl rfl
  | @beyond s f some read limit =>
    cases f with
    | malformed => exact absurd rfl limit
    | longInteger => exact .inr .digits
    | deep => exact .inr .depth

theorem ofReply_error {r : Reply} {e : Error} (h : Answer.ofReply false r = .error e) :
    e.isOwn = true ∨ Astray e := by
  unfold Answer.ofReply at h
  split at h
  · cases h
  · cases h
  · rename_i b
    rw [if_neg Bool.false_ne_true] at h
    cases hc : Answer.content b with
    | error e' =>
      rw [hc] at h
      cases h
      exact content_error hc
    | ok v =>
      rw [hc] at h
      cases h

theorem reject_error {α : Type} {message : String} {code body : Value} {e : Error}
    (h : (Problem.reject message code body : Except Error α) = .error e) :
    e.isOwn = true ∨ Astray e := by
  unfold Problem.reject Problem.rejection at h
  rcases hb : Problem.ofBody body with e' | ms
  all_goals
    rw [hb] at h
    cases h
  · obtain ⟨-, rfl⟩ := Problem.ofBody_eq_error_iff.mp hb
    exact .inr .depth
  · exact .inl rfl

theorem fetch_failsWith (url : Value) :
    Action.FailsWith (fun e => e.isOwn = true ∨ Astray e) (fetch url) := by
  intro s e t h
  rcases fetch_cases s url with ⟨-, hf⟩ | ⟨g, -, hf⟩
  all_goals rw [hf] at h
  · cases h
    exact .inr .target
  · exact ofReply_error (congrArg Prod.fst h)

variable (c) in
theorem refuseDirectory_failsWith (a : Answer) :
    Action.FailsWith (fun e => e.isOwn = true ∨ Astray e) (c.refuseDirectory a) :=
  Action.failsWith_bind (fun _ _ _ h => by cases h) fun _ =>
    Action.failsWith_ofExcept fun _ h => reject_error h

variable (c) in
theorem directory_failsWith :
    Action.FailsWith (fun e => e.isOwn = true ∨ Astray e) c.directory := by
  intro s e t h
  rw [directory_eq] at h
  cases hd : s.directory with
  | some ms =>
    rw [hd] at h
    cases h
  | none =>
    rw [hd] at h
    refine Action.failsWith_bind ?_
      (fun url => Action.failsWith_bind (fetch_failsWith url) fun a => ?_) s e t h
    · refine Action.failsWith_ofExcept fun e h => ?_
      unfold directoryUrl at h
      split at h <;> cases h
      exact .inr .address
    · unfold keepDirectory
      split
      · split_ifs
        · exact refuseDirectory_failsWith c a
        · exact fun _ _ _ h => by cases h
      · exact refuseDirectory_failsWith c a

variable (c) in
theorem resourceUrl_failsWith (name : String) :
    Action.FailsWith (fun e => e.isOwn = true ∨ Astray e) (c.resourceUrl name) := by
  refine Action.failsWith_bind (Action.failsWith_bind (directory_failsWith c) fun _ =>
    Action.failsWith_pure _) fun v => ?_
  split
  · intro s e t h
    cases h
    exact .inl rfl
  · exact Action.failsWith_pure _

variable (c) in
/-- **Getting a nonce fails with a failure of the authority or of its data, or with one of a few
other errors.** -/
theorem freshen_failsWith : Action.FailsWith (fun e => e.isOwn = true ∨ Astray e) c.freshen := by
  intro s e t h
  rw [freshen_eq] at h
  split_ifs at h
  · exact Action.failsWith_bind (resourceUrl_failsWith c _)
      (fun url => Action.failsWith_bind (fetch_failsWith url) fun _ => Action.failsWith_pure _)
      s e t h
  · have := congrArg Prod.fst h
    cases this

theorem post_of_freshen_error {x : Error} (url payload : Value) (given : Members) (raw : Bool)
    (key : Option PrivateKey) (accept : Option String) (h : c.freshen s = (.error x, w)) :
    ∃ y t new, c.post url payload given raw key accept s = (.error y, t) ∧
      (∀ text, payloadText payload = .ok text → y = x) ∧
      t.history = s.history ++ new ∧ ∀ e ∈ new, e.request.content = none := by
  rw [post_eq]
  unfold postOnce
  cases hp : payloadText payload with
  | error y =>
    rw [Action.ofExcept_bind_of_error rfl]
    refine ⟨y, s, [], rfl, ?_, (List.append_nil _).symm, ?_⟩
    · intro text h
      cases h
    · intro e he
      cases he
  | ok text =>
    obtain ⟨new, hnew, unsigned⟩ := (quiets_of_freshen h).history_eq
    rw [Action.ofExcept_bind_of_ok rfl, Action.bind_of_error h]
    exact ⟨x, w, new, rfl, fun _ _ => rfl, hnew, unsigned⟩

end Usable

/-- **When a signed request carries a usable nonce.** Before each signed request a nonce is made
sure of. If that fails, the request fails and nothing is signed. Otherwise the request is sent with
the nonce that is in the memory then, which is usable exactly if one was obtained. -/
theorem usable_iff_obtained (c : Client) (account : Value) (clock : Int) (routes : Routes Reply)
    (ops : List Operation) :
    ((c.run ops (.start account clock routes)).history.Always fun before e =>
      ∀ j, e.request.content = some j → ∃ s w,
        Steps c (fun d => ∃ o ∈ ops, o.Permits d) (.start account clock routes) s ∧
        c.freshen s = (.ok (), w) ∧ w.history = before ∧ w.nonce = j.nonce ∧
        w.surroundings.clock = e.time ∧ (Usable before j.nonce e.time ↔ Obtained s before)) ∧
    ∀ s x w, c.freshen s = (.error x, w) → (x.isOwn = true ∨ Astray x) ∧
      ∀ url payload given raw key accept, ∃ y t new,
        c.post url payload given raw key accept s = (.error y, t) ∧
        (∀ text, payloadText payload = .ok text → y = x) ∧
        t.history = s.history ++ new ∧ ∀ e ∈ new, e.request.content = none := by
  refine ⟨?_, fun s x w h => ⟨freshen_failsWith c s x w h, fun url payload given raw key accept =>
    post_of_freshen_error url payload given raw key accept h⟩⟩
  let start := State.start account clock routes
  have tracked : ∀ {s}, Steps c (fun d => ∃ o ∈ ops, o.Permits d) start s → Tracked s := fun h =>
    (spends_latest h (tracked_start account clock routes) History.always_nil).1
  refine (Steps.always (I := Steps c (fun d => ∃ o ∈ ops, o.Permits d) start)
    (fun step h => h.tail step) ?_ ?_ (steps_run c start ops) .refl History.always_nil).2
  · intro es e he j hj
    rw [he] at hj
    cases hj
  · intro s w q j d hs _ _ hw j' hj'
    obtain rfl : j = j' := Option.some.inj (hw.content.symm.trans hj')
    refine ⟨s, w, hs, hw.fresh, rfl, hw.spent.1.symm, rfl, ?_⟩
    rw [hw.spent.1]
    exact usable_iff (tracked hs) hw.fresh

/-- The request for a nonce is answered without one, and a request is signed all the same. -/
theorem usable_iff_obtained_null :
    let es := (sample.run [.sendSigned (.text "https://ca/a") .null none]
      (.start (.text "https://ca/1") 0
      [("https://ca/directory", [.response 200 .missing
        (Octets.ofString "\x7b\"newNonce\": \"https://ca/n\"\x7d") false]),
       ("https://ca/n", [sampleReply none]), ("https://ca/a", [sampleReply none])])).history
    ∃ e ∈ es.getLast?, ∃ j, e.request.content = some j ∧ j.nonce = .null ∧
      ∃ s w, sample.freshen s = (.ok (), w) ∧ w.history = es.dropLast ∧
        ¬ Obtained s es.dropLast := by
  intro es
  obtain ⟨e, he, j, hj, last⟩ : ∃ e ∈ es.getLast?, ∃ j, e.request.content = some j ∧
      es = es.dropLast ++ [e] := History.exists_last_signed (by decide +kernel)
  have spent : es.getLast?.bind Exchange.spent? = none :=
    Option.isNone_iff_eq_none.mp (by decide +kernel)
  have null : j.nonce = .null := by
    by_contra hn
    have := Exchange.spent?_eq_some_iff.mpr ⟨j, hj, rfl, hn⟩
    rw [Option.mem_def.mp he, Option.bind_some, this] at spent
    cases spent
  obtain ⟨s, w, -, hf, hw, -, -, iff⟩ := (usable_iff_obtained sample _ _ _ _).1 _ e [] last j hj
  exact ⟨e, he, j, hj, null, s, w, hf, hw, fun h => (iff.mpr h).1 null⟩

end Client

end AcmeClient
