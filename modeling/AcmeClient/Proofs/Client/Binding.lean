import AcmeClient.Proofs.Base64
import AcmeClient.Proofs.Client.Step
import AcmeClient.Proofs.Json.RoundTrip
import AcmeClient.Proofs.Target
import AcmeClient.Proofs.Text.Utf8

/-!
# Signed requests are bound to their keys

RFC 8555, section 6.2: a signed request carries either its public key or the address of the account.

* `Client.Known`: where the address of the account in the memory comes from;
* `Client.legible_header`: the protected headers that are read back;
* `Client.Bound`: a signed request is well formed and bound to its key;
* **`Client.bound_of_written`**: every signed request that is written is bound to its key;
* **`Client.signed_bound`**: so is every signed request of a run.
-/

namespace AcmeClient

namespace Value

/-- A text that is not empty. -/
def isNonemptyText : Value → Bool
  | text u => u != ""
  | _ => false

theorem isNonemptyText_iff {v : Value} : v.isNonemptyText = true ↔ ∃ u, v = .text u ∧ u ≠ "" := by
  cases v <;> simp [isNonemptyText]

end Value

namespace Client

/-! ## The address of the account -/

/-- The address of the account is the one that was configured or, if there was none, the one that
the last look-up brought. -/
structure Known (configured : Value) (s : State) : Prop where
  kept : configured.isTrue = true → s.account = configured
  found : configured.isTrue = false → s.account.isTrue = true →
    s.history.accounts.getLast? = some s.account

section Known

variable {c : Client} {P : Draft → Prop} {configured : Value} {s t : State}

theorem accounts_unsigned {es new : History} (h : ∀ e ∈ new, e.request.content = none) :
    History.accounts (es ++ new) = es.accounts := by
  have none : new.accounts = [] := by
    refine List.filterMap_eq_nil_iff.mpr fun e he => ?_
    rw [Exchange.account?, h e he]
  unfold History.accounts at none ⊢
  rw [List.filterMap_append, none, List.append_nil]

theorem accounts_quiets (h : Quiets c s t) : t.history.accounts = s.history.accounts := by
  obtain ⟨new, hnew, unsigned⟩ := h.history_eq
  rw [hnew, accounts_unsigned unsigned]

theorem Known.congr (hs : Known configured s) (account : t.account = s.account)
    (accounts : t.history.accounts = s.history.accounts) : Known configured t := by
  constructor
  · rw [account]
    exact hs.kept
  · rw [account, accounts]
    exact hs.found

theorem Known.step (h : Step c P s t) (hs : Known configured s) : Known configured t := by
  cases h with
  | quiet h => exact hs.congr h.account_eq (accounts_quiets (.single h))
  | waste => exact hs.congr rfl rfl
  | surround w h => exact hs.congr rfl (congrArg History.accounts h)
  | settle v unknown found =>
    refine ⟨fun hc => ?_, fun _ _ => found⟩
    rw [← hs.kept hc, unknown] at hc
    cases hc
  | @post w q j d _ fits written =>
    have quiets := quiets_of_freshen written.fresh
    have account : (exchange q w.spending).2.account = s.account := by
      rw [account_exchange, account_spending, quiets.account_eq]
    by_cases hl : d.purpose = .lookup
    · have unknown : s.account.isTrue = false := by
        simpa only [Draft.Fits, hl] using fits
      refine ⟨fun hc => account.trans (hs.kept hc), fun _ ht => ?_⟩
      rw [account, unknown] at ht
      cases ht
    · refine hs.congr account ?_
      have none : (w.spending.made q).account? = none := by
        have := mt (Draft.isLookup_header j written.header).mp hl
        rw [Exchange.account?, made_request, written.content]
        dsimp only
        rw [if_neg this]
      rw [history_exchange, history_spending, History.accounts, List.filterMap_append,
        List.filterMap_cons_none none]
      exact (List.append_nil _).trans (accounts_quiets quiets)

theorem known_start (clock : Int) (routes : Routes Reply) :
    Known configured (.start configured clock routes) :=
  ⟨fun _ => rfl, fun hc ht => by
    rw [show (State.start configured clock routes).account = configured from rfl, hc] at ht
    cases ht⟩

end Known

/-! ## What is read back -/

section Legible

open Json

theorem legible_texts {ms : Members} {n : Nat} (names : (ms.map Prod.fst).Nodup)
    (texts : ∀ p ∈ ms, ∃ u, p.2 = .text u) : Legible (n + 1) (.object ms) := by
  refine .object names fun p hp => ?_
  obtain ⟨u, hu⟩ := texts p hp
  rw [hu]
  exact .text u

theorem legible_jwk (p : PublicKey) : Legible 1 (.object p.jwk) := by
  cases p with
  | rsa n e =>
    refine legible_texts (show ["kty", "e", "n"].Nodup by decide) ?_
    simp [PublicKey.jwk, PublicKey.member]
  | point c x y =>
    refine legible_texts (show ["kty", "crv", "x", "y"].Nodup by decide) ?_
    simp [PublicKey.jwk, PublicKey.member]
  | edwards c b =>
    refine legible_texts (show ["kty", "crv", "x"].Nodup by decide) ?_
    simp [PublicKey.jwk, PublicKey.member]

/-- **The protected headers that are read back**: those with a readable nonce and address. -/
theorem legible_header {c : Client} {d : Draft} {p : PublicKey} {account nonce : Value} {n : Nat}
    (hn : Legible (n + 1) nonce) (hu : Legible (n + 1) d.url)
    (ha : d.purpose = .account → Legible (n + 1) account) :
    Legible (n + 2) (.object (d.header c p account nonce)) := by
  have jwk : ∀ p : PublicKey, Legible (n + 1) (.object p.jwk) := fun p =>
    (legible_jwk p).mono (by omega)
  unfold Draft.header
  cases hp : d.purpose with
  | lookup =>
    refine .object (show ["alg", "jwk", "nonce", "url"].Nodup by decide) ?_
    simp only [lookupHeader, List.cons_append, List.nil_append, List.mem_cons, List.not_mem_nil,
      or_false]
    rintro _ (rfl | rfl | rfl | rfl)
    · exact .text _
    · exact jwk _
    · exact hn
    · exact hu
  | account =>
    cases account.isTrue with
    | true =>
      refine .object (show ["nonce", "url", "alg", "kid"].Nodup by decide) ?_
      simp only [if_true, List.cons_append, List.nil_append, List.mem_cons, List.not_mem_nil,
        or_false]
      rintro _ (rfl | rfl | rfl | rfl)
      · exact hn
      · exact hu
      · exact .text _
      · exact ha hp
    | false =>
      refine .object (show ["nonce", "url", "alg"].Nodup by decide) ?_
      simp only [Bool.false_eq_true, if_false, List.append_nil, List.mem_cons, List.not_mem_nil,
        or_false]
      rintro _ (rfl | rfl | rfl)
      · exact hn
      · exact hu
      · exact .text _
  | key k =>
    refine .object (show ["nonce", "url", "alg", "jwk"].Nodup by decide) ?_
    simp only [List.mem_cons, List.not_mem_nil, or_false]
    rintro _ (rfl | rfl | rfl | rfl)
    · exact hn
    · exact hu
    · exact .text _
    · exact jwk _

theorem read_text (j : Jws) : Json.read j.text = .ok (.object
    [("protected", .text (Jws.part j.headerText)), ("payload", .text (Jws.part j.payload)),
      ("signature", .text (Base64.encodeUrl j.signature))]) := by
  have legible : Legible 1 (.object [("protected", .text (Jws.part j.headerText)),
      ("payload", .text (Jws.part j.payload)),
      ("signature", .text (Base64.encodeUrl j.signature))]) :=
    legible_texts (show ["protected", "payload", "signature"].Nodup by decide) (by simp)
  obtain ⟨t, ht, -⟩ := chars?_reads legible
  refine read_write? legible (by decide) ?_
  unfold Jws.text
  rw [write?, ht]
  rfl

theorem decode_part (s : String) : (Base64.decodeUrl? (Jws.part s)).bind Utf8.decode? = some s := by
  rw [Jws.part, Base64.decodeUrl?_encodeUrl, Option.bind_some, Utf8.decode?_ofString]

end Legible

/-! ## Bound requests -/

/-- The signed request `j` for the draft `d` in the exchange `e`, which comes after the exchanges
`before`, is well formed and bound to its key. -/
structure Bound (configured : Value) (c : Client) (before : History) (d : Draft) (e : Exchange)
    (j : Jws) : Prop where
  /-- Three texts are sent. -/
  sent : Json.read j.text = .ok (.object [("protected", .text (Jws.part j.headerText)),
    ("payload", .text (Jws.part j.payload)), ("signature", .text (Base64.encodeUrl j.signature))])
  /-- The signature is over the first two of them, by the key of the draft. -/
  signature : (d.key c).sign (Jws.part j.headerText ++ "." ++ Jws.part j.payload) = .ok j.signature
  signer : (d.key c).publicKey = .ok j.signer
  /-- The first one is the text of the protected header, from which the header is read back if its
  nonce and its address can be. -/
  decoded : (Base64.decodeUrl? (Jws.part j.headerText)).bind Utf8.decode? = some j.headerText
  written : Json.write? (.object j.header) = some j.headerText
  read : Json.Legible (Json.depthLimit - 1) j.nonce → Json.Legible (Json.depthLimit - 1) d.url →
    Json.read j.headerText = .ok (.object j.header)
  /-- The second one is the text of the payload, which is empty if there is none. -/
  payload : (Base64.decodeUrl? (Jws.part j.payload)).bind Utf8.decode? = some j.payload
  content : payloadText d.payload = .ok j.payload
  /-- The header names the address that was given, and the request goes there. -/
  url : j.header.find? "url" = some d.url
  target : ∃ g, Target.read? d.url.display = some g ∧ e.request.url = g.text
  same : ∀ u, d.url = .text u → (e.request.url = u ↔
    Target.unwrap u.toList = u.toList ∧ u.toList.getLast? ≠ some '#')
  alg : j.header.find? "alg" = some (.text j.signer.algorithm)
  /-- There is either the public key or the address of the account. -/
  one : (j.header.find? "jwk").isSome ≠ (j.header.find? "kid").isSome
  jwk : d.purpose ≠ .account → j.header.find? "jwk" = some (.object j.signer.jwk)
  kid : d.purpose = .account → j.header.find? "kid" =
    if configured.isTrue then some configured else before.accounts.getLast?
  lookup : d.purpose = .lookup → j.payload = "\x7b\"onlyReturnExisting\": true\x7d"

section Bound

variable {c : Client} {configured : Value} {s w : State} {q : Request} {j : Jws} {d : Draft}
  {p : PublicKey} {account nonce : Value}

theorem find?_url_header : (d.header c p account nonce).find? "url" = some d.url := by
  unfold Draft.header
  cases d.purpose <;> simp [lookupHeader, Members.find?]

theorem find?_alg_header (h : (∃ k, d.purpose = .key k) ∨ p = c.publicKey) :
    (d.header c p account nonce).find? "alg" = some (.text p.algorithm) := by
  unfold Draft.header
  cases hp : d.purpose with
  | key k => simp [Members.find?]
  | lookup | account =>
    rw [hp] at h
    obtain rfl : p = c.publicKey := by simpa using h
    simp [lookupHeader, Members.find?]

theorem find?_account_header (hp : d.purpose = .account) (ha : account.isTrue = true) :
    (d.header c p account nonce).find? "jwk" = none ∧
      (d.header c p account nonce).find? "kid" = some account := by
  unfold Draft.header
  rw [hp]
  simp [Members.find?, ha]

theorem find?_key_header (hp : d.purpose ≠ .account)
    (h : (∃ k, d.purpose = .key k) ∨ p = c.publicKey) :
    (d.header c p account nonce).find? "jwk" = some (.object p.jwk) ∧
      (d.header c p account nonce).find? "kid" = none := by
  unfold Draft.header
  cases hd : d.purpose with
  | account => exact absurd hd hp
  | key k => simp [Members.find?]
  | lookup =>
    rw [hd] at h
    obtain rfl : p = c.publicKey := by simpa using h
    simp [lookupHeader, Members.find?]

theorem Known.isTrue_account (known : Known configured s) (hp : d.purpose = .account)
    (fits : d.Fits s)
    (found : ∀ v ∈ s.history.accounts, ∃ u, v = .text u ∧ u ≠ "") :
    s.account.isTrue = true ∧
      some s.account =
        if configured.isTrue then some configured else s.history.accounts.getLast? := by
  have given : s.account.isTrue = true := by
    rcases (by simpa only [Draft.Fits, hp] using fits : _ ∨ _) with h | h
    · exact h
    · obtain ⟨u, hu, ne⟩ := found _ h
      rw [hu]
      simpa [Value.isTrue] using ne
  refine ⟨given, ?_⟩
  split_ifs with hc
  · rw [known.kept hc]
  · exact (known.found (by simpa using hc) given).symm

theorem Known.text_account (known : Known configured s)
    (hconf : configured = .null ∨ ∃ u, configured = .text u) (hp : d.purpose = .account)
    (fits : d.Fits s)
    (found : ∀ v ∈ s.history.accounts, ∃ u, v = .text u ∧ u ≠ "") : ∃ u, s.account = .text u := by
  obtain ⟨-, account⟩ := known.isTrue_account hp fits found
  split_ifs at account with hc
  · rw [Option.some.inj account]
    rcases hconf with rfl | hu
    · cases hc
    · exact hu
  · obtain ⟨u, hu, -⟩ := found _ (List.mem_of_getLast? account.symm)
    exact ⟨u, hu⟩

/-- **Every signed request that is written is bound to its key.** -/
theorem bound_of_written (hk : c.key.publicKey = .ok c.publicKey)
    (hconf : configured = .null ∨ ∃ u, configured = .text u) (known : Known configured s)
    (found : ∀ v ∈ w.history.accounts, ∃ u, v = .text u ∧ u ≠ "") (fits : d.Fits s)
    (hl : d.purpose = .lookup → d.payload = lookupPayload) (h : d.Written c s w q j) :
    Bound configured c w.history d (w.spending.made q) j := by
  have quiets := quiets_of_freshen h.fresh
  have same : w.account = s.account := quiets.account_eq
  have accounts : w.history.accounts = s.history.accounts := accounts_quiets quiets
  rw [accounts] at found
  have signer : (∃ k, d.purpose = .key k) ∨ j.signer = c.publicKey := by
    have := h.signer
    unfold Draft.key Draft.key? at this
    cases hp : d.purpose with
    | key k => exact .inl ⟨k, rfl⟩
    | lookup | account =>
      rw [hp] at this
      exact .inr (Except.ok.inj (this.symm.trans hk))
  have hn : j.nonce = w.nonce := by
    rw [Jws.nonce, h.header, Draft.nonce_of_header]
  constructor
  · exact read_text j
  · exact h.signature
  · exact h.signer
  · exact decode_part _
  · exact h.text
  · intro nonce url
    have legible : Json.Legible Json.depthLimit (.object j.header) := by
      rw [h.header]
      refine legible_header (hn ▸ nonce) url fun hp => ?_
      obtain ⟨u, hu⟩ := known.text_account hconf hp fits found
      rw [same, hu]
      exact .text u
    exact Json.read_write? legible (Nat.le_refl _) h.text
  · exact decode_part _
  · exact h.payload
  · rw [h.header, find?_url_header]
  · exact h.target
  · intro u hu
    obtain ⟨g, hg, hq⟩ := h.target
    rw [hu] at hg
    rw [made_request, hq]
    exact Target.text_eq_iff hg
  · rw [h.header, find?_alg_header signer]
  · rw [h.header]
    by_cases hp : d.purpose = .account
    · obtain ⟨given, -⟩ := known.isTrue_account hp fits found
      rw [same, (find?_account_header hp given).1, (find?_account_header hp given).2]
      exact Bool.false_ne_true
    · rw [(find?_key_header hp signer).1, (find?_key_header hp signer).2]
      exact Bool.false_ne_true.symm
  · intro hp
    rw [h.header, (find?_key_header hp signer).1]
  · intro hp
    obtain ⟨given, account⟩ := known.isTrue_account hp fits found
    rw [h.header, same, (find?_account_header hp given).2, accounts]
    exact account
  · intro hp
    have := h.payload
    rw [hl hp] at this
    exact (Except.ok.inj this).symm

end Bound

/-! ## Runs -/

section Run

variable {config : Members} {key : Option PrivateKey} {c : Client} {account : Value}

theorem publicKey_of_ofConfig (h : ofConfig config key = .ok (c, account)) :
    c.key.publicKey = .ok c.publicKey := by
  unfold ofConfig at h
  cases hf : Members.find? config "authority" with
  | none =>
    rw [hf] at h
    cases h
  | some ca =>
    rw [hf] at h
    cases hk : (key.getD .foreign).publicKey with
    | error e =>
      simp [bind, Except.bind, hk] at h
    | ok p =>
      simp only [bind, Except.bind, hk, Except.ok.injEq, Prod.mk.injEq] at h
      obtain ⟨rfl, -⟩ := h
      exact hk

theorem Operation.Permits.payload_lookup {o : Operation} {d : Draft} (h : o.Permits d)
    (hl : d.purpose = .lookup) : d.payload = lookupPayload := by
  have lookup : IsLookup d → d.payload = lookupPayload := by
    rintro ⟨url, rfl⟩
    rfl
  cases o with
  | login => exact lookup h
  | requestCertificate url =>
    rcases h with h | rfl
    · exact lookup h
    · cases hl
  | sendSigned url payload key =>
    cases key with
    | none =>
      rcases h with h | rfl
      · exact lookup h
      · cases hl
    | some k =>
      obtain rfl := h
      cases hl
  | _ => exact h.elim

theorem Known.steps {P : Draft → Prop} {s t : State} (h : Steps c P s t) (hs : Known account s) :
    Known account t := by
  induction h with
  | refl => exact hs
  | tail _ step ih => exact ih.step step

/-- **Every signed request of a run is well formed and bound to its key**, provided that the
look-ups bring addresses that are texts and not empty. -/
theorem signed_bound (h : ofConfig config key = .ok (c, account))
    (ha : account = .null ∨ ∃ u, account = .text u) (clock : Int) (routes : Routes Reply)
    (ops : List Operation) (o : Operation)
    (found : ∀ v ∈ (c.run (ops ++ [o]) (.start account clock routes)).history.accounts,
      ∃ u, v = .text u ∧ u ≠ "") :
    ∃ new, (c.run (ops ++ [o]) (.start account clock routes)).history =
        (c.run ops (.start account clock routes)).history ++ new ∧
      ∀ before e after j, new = before ++ e :: after → e.request.content = some j →
        ∃ d, o.Permits d ∧
          Bound account c ((c.run ops (.start account clock routes)).history ++ before) d e j := by
  have known : Known account (c.run ops (.start account clock routes)) :=
    (known_start clock routes).steps (steps_run c _ ops)
  have steps := steps_act c (c.run ops (.start account clock routes)) o
  have last : c.run (ops ++ [o]) (.start account clock routes) =
      (o.act c (c.run ops (.start account clock routes))).2 := by
    rw [run, List.foldl_append]
    rfl
  rw [last] at found ⊢
  generalize c.run ops (.start account clock routes) = s at known steps found ⊢
  obtain ⟨new, hnew⟩ := steps.history_eq
  refine ⟨new, hnew, fun before e after j hb hj => ?_⟩
  -- only the requests of the last operation are looked at
  have always := (steps.always (I := Known account)
    (Q := fun before e => s.history.length ≤ before.length →
      (∀ v ∈ History.accounts before, ∃ u, v = .text u ∧ u ≠ "") →
      ∀ j, e.request.content = some j → ∃ d, o.Permits d ∧ Bound account c before d e j)
    (fun step hs => hs.step step) ?_ ?_ known ?_).2
  · have whole : (o.act c s).2.history = (s.history ++ before) ++ e :: after := by
      rw [hnew, hb, List.append_assoc]
    refine always _ e after whole (by rw [List.length_append]; omega) (fun v hv => found v ?_) j hj
    rw [whole, History.accounts, List.filterMap_append]
    exact List.mem_append_left _ hv
  · intro es e he _ _ j hj
    rw [he] at hj
    cases hj
  · intro s w q j d known hd fits written _ found j' hj'
    obtain rfl : j = j' := Option.some.inj (written.content.symm.trans hj')
    exact ⟨d, hd,
      bound_of_written (publicKey_of_ofConfig h) ha known found fits hd.payload_lookup written⟩
  · intro before e after hs hlen
    rw [hs, List.length_append, List.length_cons] at hlen
    omega

/-- The account is looked up, and a request is made on its behalf. -/
theorem signed_bound_account :
    let routes : Routes Reply := [("https://ca/a", [sampleReply "n1"]),
      ("https://ca/directory", [.response 200 .missing
        (Octets.ofString "\x7b\"newAccount\": \"https://ca/b\"\x7d") false]),
      ("https://ca/b", [.response 200 (.table [("Location", .text "https://ca/1"),
        ("Replay-Nonce", .text "n2")]) [] false])]
    let o := Operation.sendSigned (.text "https://ca/a") .null none
    let es :=
      (sample.run ([.requestResource "https://ca/a"] ++ [o]) (.start .null 0 routes)).history
    ∃ e ∈ es.getLast?, ∃ j, e.request.content = some j ∧
      ∃ d, o.Permits d ∧ Bound .null sample es.dropLast d e j := by
  intro routes o es
  have config : ofConfig [("authority", .text "https://ca")] (some (.edwards .ed25519 [])) =
      .ok (sample, .null) := rfl
  have found : ∀ v ∈ es.accounts, ∃ u, v = .text u ∧ u ≠ "" := by
    have texts : es.accounts.all Value.isNonemptyText = true := by decide +kernel
    exact fun v hv => Value.isNonemptyText_iff.mp (List.all_eq_true.mp texts v hv)
  have length : es.length = (sample.run [.requestResource "https://ca/a"]
      (.start .null 0 routes)).history.length + 3 := by
    decide +kernel
  obtain ⟨e, he, j, hj, last⟩ : ∃ e ∈ es.getLast?, ∃ j, e.request.content = some j ∧
      es = es.dropLast ++ [e] := History.exists_last_signed (by decide +kernel)
  obtain ⟨new, hnew, all⟩ :=
    signed_bound config (.inl rfl) 0 routes [.requestResource "https://ca/a"] o found
  change es = _ ++ new at hnew
  rcases List.eq_nil_or_concat new with rfl | ⟨before, e', rfl⟩
  · rw [hnew, List.append_nil] at length
    omega
  rw [List.concat_eq_append, ← List.append_assoc] at hnew
  obtain ⟨front, end_eq⟩ := List.append_inj' (last.symm.trans hnew) rfl
  obtain rfl : e = e' := by simpa using end_eq
  refine ⟨e, he, j, hj, ?_⟩
  rw [front]
  exact all before e [] j (by rw [List.concat_eq_append]) hj

/-- An address with a blank in front is named as it is, and requested without the blank. -/
theorem signed_bound_wrapped :
    let es := (sample.run [.requestResource "https://ca/a",
      .sendSigned (.text " https://ca/a") .null none]
      (.start (.text "https://ca/1") 0 [("https://ca/a", [sampleReply "n1"])])).history
    ∃ e ∈ es, ∃ j, e.request.content = some j ∧
      j.header.find? "url" ≠ some (.text e.request.url) := by
  intro es
  have other : (es.any fun e => e.request.content.any fun j =>
      (j.header.find? "url").map Value.display != some e.request.url) = true := by
    decide +kernel
  obtain ⟨e, he, other⟩ := List.any_eq_true.mp other
  obtain ⟨j, hj, other⟩ := (Option.any_eq_true _ _).mp other
  refine ⟨e, he, j, hj, fun hu => ?_⟩
  rw [hu] at other
  simp [Value.display] at other

end Run

end Client

end AcmeClient
