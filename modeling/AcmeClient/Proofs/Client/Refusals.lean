import AcmeClient.Proofs.CertId
import AcmeClient.Proofs.Client.Account
import AcmeClient.Proofs.Client.Content
import AcmeClient.Proofs.Client.Repetition
import AcmeClient.Proofs.Key.Signature

/-!
# Refusals are reported

RFC 8555, section 6.7: an authority that refuses a request says why in a problem document.

* `History.lastResponse`, `Problem.Means`: the last exchange that brought a response, and the
  problem document that a text stands for;
* `Client.exists_sign`: what was signed once can be signed with another nonce;
* `Client.adds_freshen_of_offers`: what making sure of a nonce does where nonces are offered;
* `Client.Ends`, **`Client.ends_post`**: how the exchanges of a signed request end;
* `Client.Ends.status_lt`, `Client.Ends.transport`, `Client.Ends.transport_of_silence`: what is
  reported;
* **`Client.refusals_reported`**: operations that ask for one address.
-/

namespace AcmeClient

namespace Reply

/-- A response has arrived. -/
def isResponse : Reply → Bool
  | response .. => true
  | silence _ => false

/-- Status and content of a response that counts as a failure. -/
def failure? : Reply → Option (Int × Octets)
  | response code _ b true => some (code, b)
  | _ => none

theorem failure?_eq_some_iff {r : Reply} {code : Int} {b : Octets} :
    r.failure? = some (code, b) ↔ ∃ headers, r = .response code headers b true := by
  unfold failure?
  split <;> simp_all

end Reply

namespace History

/-- The exchanges of one address. -/
def sentTo (url : String) (es : History) : History :=
  es.filter fun e => e.request.url = url

/-- The last exchange that brought a response. -/
def lastResponse (es : History) : Option Exchange :=
  (es.filter fun e => e.reply.isResponse).getLast?

variable {es ds : History} {e : Exchange} {url : String}

theorem lastResponse_append : lastResponse (es ++ ds) = ds.lastResponse.or es.lastResponse := by
  rw [lastResponse, List.filter_append, List.getLast?_append]
  rfl

theorem lastResponse_concat (h : e.reply.isResponse = true) :
    lastResponse (es ++ [e]) = some e := by
  rw [lastResponse, List.filter_append, List.filter_singleton, h]
  exact List.getLast?_concat

theorem mem_of_lastResponse (h : es.lastResponse = some e) : e ∈ es :=
  (List.mem_filter.mp (List.mem_of_getLast? h)).1

theorem lastResponse_eq_none_iff :
    es.lastResponse = none ↔ ∀ e ∈ es, e.reply.isResponse = false := by
  simp [lastResponse]

theorem sentTo_concat (h : e.request.url = url) :
    sentTo url (es ++ [e]) = es.sentTo url ++ [e] := by
  rw [sentTo, List.filter_append, List.filter_cons_of_pos (by simpa using h)]
  rfl

end History

namespace Problem

/-- The problem document that a text stands for. -/
inductive Means (text : String) : Members → Prop
  | document {ms : Members} (read : Json.read text = .ok (.object ms)) : Means text ms
  /-- Another document says nothing. -/
  | other {v : Value} (read : Json.read text = .ok v) (kind : ∀ ms, v ≠ .object ms) : Means text []
  | empty (none : text = "") : Means text []
  /-- Any other text is the detail. -/
  | detail {f : Json.Fault} (some : text ≠ "") (read : Json.read text = .error f) :
      Means text [("detail", .text text)]

theorem means_of_ofText {text : String} {ms : Members} (h : ofText text = .ok ms) :
    Means text ms := by
  unfold ofText at h
  rcases hr : Json.read text with f | v
  · rw [hr] at h
    cases f with
    | deep => cases h
    | malformed | longInteger =>
      cases h
      split_ifs with none
      · exact .empty none
      · exact .detail none hr
  · rw [hr] at h
    cases h
    cases v with
    | object ms => exact .document hr
    | _ => exact .other hr nofun

theorem reject_of_ofBody {α : Type} {code body : Value} {ms : Members} (h : ofBody body = .ok ms)
    (message : String) : (reject message code body : Except Error α) =
      .error (.transport (message ++ " (" ++ code.display ++ "): " ++ (detail ms).display)
        code ms) := by
  unfold reject rejection
  rw [h]
  rfl

theorem exists_ofText {text : String} (flat : Json.isDeep text = false) :
    ∃ ms, ofText text = .ok ms := by
  cases h : ofText text with
  | ok ms => exact ⟨ms, rfl⟩
  | error x => cases flat.symm.trans (ofText_eq_error_iff.mp h).1

end Problem

/-! ## Signing again -/

namespace Json

variable {ms : Members} {k : String} {v : Value}

theorem isSome_memberChars?_iff : (memberChars? ms).isSome = true ↔
    ∀ p ∈ ms, (chars? p.2).isSome = true := by
  induction ms with
  | nil => exact ⟨fun _ => nofun, fun _ => rfl⟩
  | cons p ms ih =>
    obtain ⟨l, w⟩ := p
    rw [memberChars?, List.forall_mem_cons, ← ih]
    cases chars? w <;> cases memberChars? ms <;> simp

theorem isSome_write?_set (h : (write? (.object ms)).isSome = true)
    (hv : (write? v).isSome = true) : (write? (.object (ms.set k v))).isSome = true := by
  simp only [write?, chars?, Option.isSome_map] at h hv ⊢
  rw [isSome_memberChars?_iff] at h ⊢
  intro p hp
  rcases Members.mem_set hp with hp | rfl
  · exact h p hp
  · exact hv

end Json

/-- Whether a key signs does not depend on the text. -/
theorem PrivateKey.exists_sign {k : PrivateKey} {s : String} {b : Octets} (h : k.sign s = .ok b)
    (t : String) : ∃ b', k.sign t = .ok b' := by
  cases k with
  | rsa k => exact exists_sign_rsa_iff.mpr (exists_sign_rsa_iff.mp ⟨b, h⟩)
  | point c d => exact ⟨_, sign_point c d t⟩
  | edwards c seed => exact ⟨_, rfl⟩
  | foreign => cases h

namespace Client

/-- What was signed once can be signed with another nonce, if that has a text. -/
theorem exists_sign {k : PrivateKey} {header : Members} {payload : String} {j : Jws} {v : Value}
    (h : sign k header payload = .ok j) (hv : (Json.write? v).isSome = true) :
    ∃ j', sign k (header.set "nonce" v) payload = .ok j' := by
  obtain ⟨rfl, rfl, text, signer, signature⟩ := sign_eq_ok_iff.mp h
  obtain ⟨text', ht⟩ := Option.isSome_iff_exists.mp
    (Json.isSome_write?_set (k := "nonce") (Option.isSome_of_eq_some text) hv)
  obtain ⟨b, hb⟩ := PrivateKey.exists_sign signature (Jws.input text' j.payload)
  exact ⟨⟨_, text', j.payload, b, j.signer⟩, sign_eq_ok_iff.mpr ⟨rfl, rfl, ht, signer, hb⟩⟩

/-! ## Nonces from a known directory -/

/-- The directory is known, and nonces are offered at `n`. -/
def State.Offers (n : Target) (s : State) : Prop :=
  (s.directory.bind fun ms => Target.read? (ms.get "newNonce").display) = some n

variable {c : Client} {s t u : State} {url payload : Value} {g n : Target}

theorem State.Offers.extends (h : s.Offers n) (later : Extends s t) : t.Offers n := by
  obtain ⟨ms, known, read⟩ := Option.bind_eq_some_iff.mp h
  exact Option.bind_eq_some_iff.mpr ⟨ms, later.directory ms known, read⟩

theorem resourceUrl_of_offers (h : s.Offers n) : ∃ url, Target.read? url.display = some n ∧
    c.resourceUrl "newNonce" s = (.ok url, s) := by
  obtain ⟨ms, known, read⟩ := Option.bind_eq_some_iff.mp h
  have here : c.directory s = (.ok ms, s) := by rw [directory_eq, known]
  have missing : Target.read? Value.null.display = none := by decide +kernel
  refine ⟨_, read, resourceUrl_of_offered here fun absent => ?_⟩
  rw [absent, missing] at read
  cases read

theorem freshen_of_offers (h : s.Offers n) : c.freshen s = (.ok (), s) ∨
    c.freshen s = ((Answer.ofReply false (s.made ⟨n.text, none, none⟩).reply).map fun _ => (),
      (exchange ⟨n.text, none, none⟩ s).2) := by
  obtain ⟨url, read, found⟩ := @resourceUrl_of_offers c s n h
  rw [freshen_eq]
  split_ifs
  · right
    rw [Action.bind_of_ok found]
    obtain ⟨missing, -⟩ | ⟨n', read', fetched⟩ := fetch_cases s url
    · cases missing.symm.trans read
    obtain rfl : n = n' := Option.some.inj (read.symm.trans read')
    rw [← Action.forget_eq]
    exact Action.forget_of_eq fetched
  · exact .inl rfl

/-- **Where nonces are offered, making sure of one asks for nothing else, and if that brings no
response the nonce is the one that was there.** -/
theorem adds_freshen_of_offers (h : s.Offers n) : ∃ new : History,
    (c.freshen s).2.history = s.history ++ new ∧ (∀ e ∈ new, e.request.url = n.text) ∧
      ((∃ e ∈ new, e.reply.isResponse = true) ∨
        (c.freshen s).1 = .ok () ∧ (c.freshen s).2.nonce = s.nonce) := by
  obtain same | asked := @freshen_of_offers c s n h
  · rw [same]
    exact ⟨[], (List.append_nil _).symm, List.forall_mem_nil _, .inr ⟨rfl, rfl⟩⟩
  · rw [asked]
    refine ⟨[s.made ⟨n.text, none, none⟩], history_exchange .., ?_, ?_⟩
    · exact fun e he => List.mem_singleton.mp he ▸ rfl
    · cases hr : (s.made ⟨n.text, none, none⟩).reply with
      | response code headers b failure =>
        exact .inl ⟨_, List.mem_singleton_self _, by rw [hr]; rfl⟩
      | silence reason =>
        have none : (s.made ⟨n.text, none, none⟩).nonce? = none := by
          rw [Exchange.nonce?, hr]
          rfl
        exact .inr ⟨rfl, (nonce_exchange_of_none _ s none).1⟩

theorem Idle.adds (h : Idle c payload s u) (offers : s.Offers n) :
    Adds (fun e => e.request.url = n.text) s u := by
  obtain ⟨new, history, asked, -⟩ := @adds_freshen_of_offers c s n offers
  cases h with
  | payload => exact .of_eq rfl
  | fresh => exact ⟨new, history, asked⟩
  | spent => exact ⟨new, history, asked⟩

/-! ## How exchanges end -/

theorem isResponse_of_rejectsNonce {raw : Bool} {r : Reply} (h : r.RejectsNonce raw) :
    r.isResponse = true := by
  obtain ⟨a, ha, code, -⟩ := h
  cases r with
  | response => rfl
  | silence reason =>
    cases ha
    cases code

/-- How the exchanges end of which some go to the address `g`, and what they lead to. -/
inductive Ends (g : Target) (raw : Bool) : History → Except Error Answer → Prop
  /-- Nothing is sent to the address. -/
  | unsent {es : History} {x : Error} (away : ∀ e ∈ es, e.request.url ≠ g.text) :
      Ends g raw es (.error x)
  /-- The last reply of the address decides. -/
  | ended {before : History} {p : Exchange} {r : Except Error Answer}
      (there : p.request.url = g.text)
      (decides : r = Answer.ofReply raw p.reply ∨ r = outcome raw p.reply) :
      Ends g raw (before ++ [p]) r
  /-- A nonce was rejected, and there is a reason why the request was not repeated: another
  response, or a nonce that cannot be signed. -/
  | stuck {before after : History} {p : Exchange} {x : Error} (there : p.request.url = g.text)
      (rejected : p.reply.RejectsNonce raw) (away : ∀ e ∈ after, e.request.url ≠ g.text)
      (why : (∃ e ∈ after, e.reply.isResponse = true) ∨
        ∃ v, p.nonce? = some v ∧ Json.write? v = none) :
      Ends g raw (before ++ p :: after) (.error x)

section Post

variable {given : Members} {raw : Bool} {key : Option PrivateKey} {accept : Option String}
  {w : State} {j : Jws} {x : Error}

theorem write?_of_unrepeated (h : Ready c url payload given key s w g j)
    (why : Unrepeated c key j t x) (fresh : (c.freshen t).1 = .ok ()) :
    Json.write? (c.freshen t).2.nonce = none := by
  cases why with
  | nonce needed none =>
    rw [(freshen_eq_error_iff c t).mpr ⟨needed, none⟩] at fresh
    cases fresh
  | signature found failed =>
    rw [found]
    by_contra some
    obtain ⟨j', signed⟩ := exists_sign h.signed (Option.isSome_iff_ne_none.mpr some)
    cases signed.symm.trans failed

theorem nonce_of_sent (q : Request) (h : Json.write? (exchange q w.spending).2.nonce = none) :
    ∃ v, (w.spending.made q).nonce? = some v ∧ Json.write? v = none := by
  cases carried : (w.spending.made q).nonce? with
  | none =>
    rw [(nonce_exchange_of_none q w.spending carried).1] at h
    cases h
  | some v =>
    rw [(nonce_exchange_of_some q w.spending carried).1] at h
    exact ⟨v, rfl, h⟩

variable (c payload given raw key accept)

/-- How it ends after a nonce was rejected in the exchange `p`: the request is repeated, or there is
a reason why it is not. -/
theorem ends_of_rejected {p : Exchange} {before : History}
    (ready : Ready c url payload given key s w g j) (there : p.request.url = g.text)
    (rejected : p.reply.RejectsNonce raw) (history : t.history = s.history ++ (before ++ [p]))
    (account : t.account = s.account) (offers : t.Offers n) (apart : n.text ≠ g.text)
    (carried : Json.write? t.nonce = none → ∃ v, p.nonce? = some v ∧ Json.write? v = none) :
    ∃ new : History,
      (c.postOnce url payload j.header raw key accept t).2.history = s.history ++ new ∧
        Ends g raw new ((c.postOnce url payload j.header raw key accept t).1.map Prod.snd) := by
  rcases postOnce_cases c url payload j.header raw key accept t with
    ⟨x, u, failed, idle, why⟩ | ⟨w', g', k, again⟩
  · obtain ⟨after, hafter, asked, reason⟩ := @adds_freshen_of_offers c t n offers
    have stays : u.history = (c.freshen t).2.history := by
      cases idle with
      | payload h => cases ready.payload.symm.trans h
      | fresh => rfl
      | spent => rfl
    rw [failed]
    refine ⟨before ++ p :: after, ?_, .stuck there rejected ?_ ?_⟩
    · rw [stays, hafter, history, List.append_assoc, List.append_assoc, List.singleton_append]
    · exact fun e he => by rw [asked e he]; exact apart
    · refine reason.imp_right fun ⟨fresh, nonce⟩ => carried ?_
      -- the nonce of the rejecting reply is still there, so that nothing but its text is missing
      rw [← nonce]
      exact write?_of_unrepeated ready (why.unrepeated ready account) fresh
  · obtain rfl : g = g' := Option.some.inj (ready.target.symm.trans again.target)
    obtain ⟨after, hafter, -⟩ := (quiets_of_freshen again.fresh).history_eq
    rw [postOnce_of_ready c url payload j.header raw key accept t again]
    refine ⟨(before ++ [p] ++ after) ++ [w'.spending.made ⟨g.text, accept, some k⟩], ?_,
      .ended rfl (.inl ?_)⟩
    · rw [history_exchange, history_spending, hafter, history]
      simp only [List.append_assoc]
    · cases Answer.ofReply raw (w'.spending.made ⟨g.text, accept, some k⟩).reply <;> rfl

/-- **The exchanges of a signed request end in one of these ways.** -/
theorem ends_post (offers : s.Offers n) (target : Target.read? url.display = some g)
    (apart : n.text ≠ g.text) : ∃ new : History,
      (c.post url payload given raw key accept s).2.history = s.history ++ new ∧
        Ends g raw new (c.post url payload given raw key accept s).1 := by
  rcases postOnce_cases c url payload given raw key accept s with
    ⟨x, u, failed, idle, -⟩ | ⟨w, g', j, ready⟩
  · obtain ⟨new, history, asked⟩ := idle.adds offers
    rw [post_eq, failed]
    exact ⟨new, history, .unsent fun e he => by rw [asked e he]; exact apart⟩
  obtain rfl : g = g' := Option.some.inj (target.symm.trans ready.target)
  have quiets := quiets_of_freshen ready.fresh
  obtain ⟨before, hbefore, -⟩ := quiets.history_eq
  have sent : (exchange ⟨g.text, accept, some j⟩ w.spending).2.history =
      s.history ++ (before ++ [w.spending.made ⟨g.text, accept, some j⟩]) := by
    rw [history_exchange, history_spending, hbefore, List.append_assoc]
  by_cases rejected : (w.spending.made ⟨g.text, accept, some j⟩).reply.RejectsNonce raw
  · rw [post_of_rejected raw accept ready rejected]
    have spent : Extends w w.spending := .of_eq rfl rfl
    have later := (((extends_change c).quiets quiets).trans spent).trans
      (extends_exchange ⟨g.text, accept, some j⟩ w.spending)
    exact ends_of_rejected c payload given raw key accept ready rfl rejected sent
      (ready.account_rejected _) (offers.extends (later.trans (.of_eq rfl rfl))) apart
      (nonce_of_sent ⟨g.text, accept, some j⟩)
  · rw [post_of_kept raw accept ready rejected]
    exact ⟨_, sent, .ended rfl (.inr rfl)⟩

end Post

/-! ## What is reported -/

section Reports

variable {α : Type} {text : String} {ms : Members} {x : Error} {a : Answer}

theorem exists_rejectsNonce (h : Problem.ofBody a.body = .ok ms) : ∃ b, rejectsNonce a = .ok b := by
  unfold rejectsNonce
  split_ifs
  · rw [h]
    cases ht : Members.get ms "type" <;> simp [bind, Except.bind, ht]
  · exact ⟨false, rfl⟩

/-- **A refusal with a text as content is reported**, be it looked at for a rejected nonce before or
not. -/
theorem exists_transport {r : Except Error Answer} (decides : r = .ok a ∨
      r = (rejectsNonce a >>= fun _ => .ok a)) (refused : 400 ≤ a.code) (content : a.body = .text text)
    (flat : Json.isDeep text = false) (message : String) :
    ∃ m ms, (r >>= accepted message) = .error (.transport m (.int a.code) ms) ∧
      Problem.Means text ms := by
  obtain ⟨ms, read⟩ := Problem.exists_ofText flat
  have body : Problem.ofBody a.body = .ok ms := by
    rw [content]
    exact read
  have answered : r = .ok a := by
    rcases decides with rfl | rfl
    · rfl
    · obtain ⟨b, looked⟩ := exists_rejectsNonce body
      rw [looked]
      rfl
  have rejected : accepted message a = Problem.reject message (.int a.code) a.body := by
    rw [accepted, Answer.isRefusal, if_pos (decide_eq_true refused)]
  rw [answered]
  exact ⟨_, ms, rejected.trans (Problem.reject_of_ofBody body message), Problem.means_of_ofText read⟩

end Reports

section Ends

variable {raw : Bool} {es : History} {e : Exchange} {r : Except Error Answer} {message : String}
  {code : Int} {b : Octets} {reason : String}

/-- **Where nothing is refused, the last response of the address has a status below 400.** -/
theorem Ends.status_lt (h : Ends g raw es r) {v : Value × Headers}
    (ok : (r >>= accepted message) = .ok v) :
    ∃ e, (es.sentTo g.text).lastResponse = some e ∧ e.reply.status < 400 := by
  obtain ⟨a, rfl, fine⟩ := Action.except_bind_eq_ok_iff.mp ok
  cases h with
  | @ended before p _ there decides =>
    have answered : Answer.ofReply raw p.reply = .ok a := by
      rcases decides with h | h
      · exact h.symm
      · obtain ⟨a', ha, rest⟩ := Action.except_bind_eq_ok_iff.mp h.symm
        obtain ⟨_, -, same⟩ := Action.except_bind_eq_ok_iff.mp rest
        rw [ha, same]
    have small : a.code < 400 := by
      unfold accepted at fine
      split_ifs at fine with refused
      · obtain ⟨x, rejected⟩ :=
          Problem.exists_reject (α := Value × Headers) message (.int a.code) a.body
        cases rejected.symm.trans fine
      · simpa [Answer.isRefusal] using refused
    rw [History.sentTo_concat there]
    cases hr : p.reply with
    | silence reason =>
      rw [hr] at answered
      cases answered
      cases small
    | response code headers b failure =>
      rw [hr] at answered
      refine ⟨p, History.lastResponse_concat (by rw [hr]; rfl), ?_⟩
      rw [hr, Reply.status, ← code_of_ofReply answered]
      exact small

/-- **Where the last response is a refusal of the address, it is reported.** -/
theorem Ends.transport (h : Ends g raw es r) (last : es.lastResponse = some e)
    (there : e.request.url = g.text) (reply : e.reply.failure? = some (code, b))
    (refused : 400 ≤ code) (nonce : ∀ v, e.nonce? = some v → ∃ t, v = .text t)
    (flat : Json.isDeep (Utf8.decodeLossy b) = false)
    (answered : ∀ d ∈ es.getLast?, d.request.url = g.text → d.reply.isResponse = true) :
    ∃ m ms, (r >>= accepted message) = .error (.transport m (.int code) ms) ∧
      Problem.Means (Utf8.decodeLossy b) ms := by
  cases h with
  | unsent away => exact absurd there (away e (History.mem_of_lastResponse last))
  | @ended before p _ there' decides =>
    have response := answered p (by rw [List.getLast?_concat]; rfl) there'
    obtain rfl : p = e := Option.some.inj ((History.lastResponse_concat response).symm.trans last)
    obtain ⟨headers, reply⟩ := Reply.failure?_eq_some_iff.mp reply
    rw [reply] at decides
    exact exists_transport decides refused rfl flat message
  | @stuck before after p x there' rejected away why =>
    -- a response after the rejection would be the last one, and not one of the address
    rw [List.append_cons, History.lastResponse_append] at last
    cases later : History.lastResponse after with
    | some d =>
      rw [later] at last
      cases last
      exact absurd there (away e (History.mem_of_lastResponse later))
    | none =>
      rw [later, Option.none_or,
        History.lastResponse_concat (isResponse_of_rejectsNonce rejected)] at last
      obtain rfl := Option.some.inj last
      rcases why with ⟨d, hd, response⟩ | ⟨v, carried, unwritten⟩
      · rw [History.lastResponse_eq_none_iff.mp later d hd] at response
        cases response
      · obtain ⟨t, rfl⟩ := nonce v carried
        cases unwritten

/-- **Where the last request is one of the address and gets no response, the reason is
reported.** -/
theorem Ends.transport_of_silence (h : Ends g raw es r) (last : es.getLast? = some e)
    (there : e.request.url = g.text) (reply : e.reply = .silence reason)
    (flat : Json.isDeep reason = false) :
    ∃ m ms, (r >>= accepted message) = .error (.transport m (.int Answer.silenceCode) ms) ∧
      Problem.Means reason ms := by
  cases h with
  | unsent away => exact absurd there (away e (List.mem_of_getLast? last))
  | @ended before p _ there' decides =>
    rw [List.getLast?_concat] at last
    obtain rfl := Option.some.inj last
    rw [reply] at decides
    exact exists_transport decides (by simp [Answer.silenceCode]) rfl flat message
  | @stuck before after p x there' rejected away why =>
    rw [List.append_cons, List.getLast?_append] at last
    cases later : List.getLast? after with
    | some d =>
      rw [later] at last
      cases last
      exact absurd there (away e (List.mem_of_getLast? later))
    | none =>
      rw [later, Option.none_or, List.getLast?_concat] at last
      obtain rfl := Option.some.inj last
      have response := isResponse_of_rejectsNonce rejected
      rw [reply] at response
      cases response

end Ends

/-! ## Operations that ask for an address -/

/-- The address that the operation asks for. -/
def Operation.address? : Operation → Option Value
  | requestCertificate url | requestResource url => some (.text url)
  | sendSigned url _ _ => some url
  | _ => none

variable {o : Operation}

theorem requestCertificate_of_known (c : Client) (known : s.account.isTrue = true) (u : String) :
    c.requestCertificate u s =
      ((c.post (.text u) .null [] true none (some chainType) s).1 >>=
          accepted "Error downloading certificate chain",
        (c.post (.text u) .null [] true none (some chainType) s).2) :=
  (Action.bind_of_ok (login_of_known known)).trans (Action.bind_ofExcept ..)

theorem sendSigned_of_known (c : Client) (known : s.account.isTrue = true) (url payload : Value)
    (key : Option PrivateKey) : c.sendSigned url payload key s =
      ((c.post url payload [] false key none s).1 >>=
          accepted ("Request to " ++ url.display ++ " failed"),
        (c.post url payload [] false key none s).2) := by
  cases key with
  | none => exact (Action.bind_of_ok (login_of_known known)).trans (Action.bind_ofExcept ..)
  | some k => exact Action.bind_ofExcept ..

theorem ends_act (c : Client) (address : o.address? = some url) (known : s.account.isTrue = true)
    (offers : s.Offers n) (target : Target.read? url.display = some g) (apart : n.text ≠ g.text) :
    ∃ (new : History) (raw : Bool) (r : Except Error Answer) (message : String) (t : State),
      o.act c s = ((r >>= accepted message).map fun _ => (), t) ∧ t.history = s.history ++ new ∧
        Ends g raw new r := by
  cases o with
  | requestCertificate u =>
    obtain rfl := Option.some.inj address
    obtain ⟨new, ends⟩ := ends_post c .null [] true none (some chainType) offers target apart
    exact ⟨new, true, _, _, _, Action.forget_of_eq (requestCertificate_of_known c known u), ends⟩
  | requestResource u =>
    obtain rfl := Option.some.inj address
    refine ⟨[s.made ⟨g.text, none, none⟩], false, _, _, _,
      Action.forget_of_eq (requestResource_eq target), history_exchange .., ?_⟩
    exact @Ends.ended g false [] _ _ rfl (.inl rfl)
  | sendSigned u payload key =>
    obtain rfl := Option.some.inj address
    obtain ⟨new, ends⟩ := ends_post c payload [] false key none offers target apart
    exact ⟨new, false, _, _, _, Action.forget_of_eq (sendSigned_of_known c known u payload key), ends⟩
  | _ => cases address

/-- **Refusals are reported with their status and their problem document.**

The account is known, the directory offers nonces, and the operation asks for another address than
theirs. It succeeds only if the last response of this address has a status below 400. If the last
response is a refusal of this address, the error carries its status and its problem document, unless
a repetition of the request got no response. If the last request goes to this address and gets no
response, the error carries the reason. -/
theorem refusals_reported (c : Client) {o : Operation} {s : State} {url : Value} {n g : Target}
    (address : o.address? = some url) (known : s.account.isTrue = true) (offers : s.Offers n)
    (target : Target.read? url.display = some g) (apart : n.text ≠ g.text) :
    ∃ new : History, (o.act c s).2.history = s.history ++ new ∧
      ((o.act c s).1 = .ok () →
        ∃ e, (new.sentTo g.text).lastResponse = some e ∧ e.reply.status < 400) ∧
      (∀ e code b, new.lastResponse = some e → e.request.url = g.text →
        e.reply.failure? = some (code, b) → 400 ≤ code →
        (∀ v, e.nonce? = some v → ∃ t, v = .text t) → Json.isDeep (Utf8.decodeLossy b) = false →
        (∀ d ∈ new.getLast?, d.request.url = g.text → d.reply.isResponse = true) →
        ∃ m ms, (o.act c s).1 = .error (.transport m (.int code) ms) ∧
          Problem.Means (Utf8.decodeLossy b) ms) ∧
      ∀ e reason, new.getLast? = some e → e.request.url = g.text → e.reply = .silence reason →
        Json.isDeep reason = false →
        ∃ m ms, (o.act c s).1 = .error (.transport m (.int Answer.silenceCode) ms) ∧
          Problem.Means reason ms := by
  obtain ⟨new, raw, r, message, t, acted, history, ends⟩ :=
    ends_act c address known offers target apart
  rw [acted]
  refine ⟨new, history, fun ok => ?_,
    fun e code b last there reply refused nonce flat answered => ?_,
    fun e reason last there reply flat => ?_⟩
  · obtain ⟨v, accepted, -⟩ := Action.map_eq_ok_iff.mp ok
    exact ends.status_lt accepted
  · obtain ⟨m, ms, failed, means⟩ := ends.transport last there reply refused nonce flat answered
    rw [failed]
    exact ⟨m, ms, rfl, means⟩
  · obtain ⟨m, ms, failed, means⟩ := ends.transport_of_silence last there reply flat
    rw [failed]
    exact ⟨m, ms, rfl, means⟩

/-- An authority that offers nonces, and gives these replies at another address. -/
def offering (replies : List Reply) : Routes Reply :=
  [("https://ca/directory", [.response 200 .missing
      (Octets.ofString "\x7b\"newNonce\": \"https://ca/n\"\x7d") false]),
    ("https://ca/n", [sampleReply "n1"]), ("https://ca/b", replies)]

/-- A client that has asked it for the directory. -/
def State.offered (replies : List Reply) : State :=
  sample.run [.directory] (.start (.text "https://ca/1") 0 (offering replies))

theorem offers_offered (replies : List Reply) : (State.offered replies).account.isTrue = true ∧
    (State.offered replies).Offers ⟨"https://ca/n".toList, []⟩ := by
  have target : Target.read? "https://ca/directory" = some ⟨"https://ca/directory".toList, []⟩ := by
    decide +kernel
  obtain ⟨-, -, directory⟩ := @directory_of_unknown sample
    (.start (.text "https://ca/1") 0 (offering replies)) (.text "https://ca/directory") _ rfl rfl
    target
  refine ⟨congrArg Value.isTrue (quiet_directory sample _).account_eq, ?_⟩
  change ((sample.directory _).2.directory.bind _) = _
  rw [directory]
  change (Except.toOption (directoryOf (.response 200 .missing
    (Octets.ofString "\x7b\"newNonce\": \"https://ca/n\"\x7d") false))).bind _ = _
  decide +kernel

/-- A request that is refused. -/
theorem refusals_reported_forbidden :
    let s := State.offered [.response 403 .missing (Octets.ofString "no") true]
    let n : Target := ⟨"https://ca/n".toList, []⟩
    let g : Target := ⟨"https://ca/b".toList, []⟩
    s.account.isTrue = true ∧ s.Offers n ∧ Target.read? "https://ca/b" = some g ∧ n.text ≠ g.text ∧
      ∃ m ms, ((Operation.sendSigned (.text "https://ca/b") .null none).act sample s).1 =
        .error (.transport m (.int 403) ms) ∧ Problem.Means "no" ms := by
  intro s n g
  obtain ⟨known, offers⟩ := offers_offered [.response 403 .missing (Octets.ofString "no") true]
  have target : Target.read? "https://ca/b" = some g := by decide +kernel
  have apart : n.text ≠ g.text := by decide +kernel
  refine ⟨known, offers, target, apart, ?_⟩
  obtain ⟨new, history, -, refused, -⟩ := refusals_reported sample
    (o := .sendSigned (.text "https://ca/b") .null none) rfl known offers target apart
  have added : new = List.drop s.history.length
      ((Operation.sendSigned (.text "https://ca/b") .null none).act sample s).2.history := by
    rw [history]
    exact List.drop_left.symm
  obtain ⟨last, answered⟩ : (new.lastResponse.map fun e =>
        (e.request.url, e.reply.failure?, e.nonce?.isNone)) =
          some ("https://ca/b", some (403, Octets.ofString "no"), true) ∧
      (new.all fun e => e.reply.isResponse) = true := by
    rw [added]
    decide +kernel
  obtain ⟨e, he, same⟩ := Option.map_eq_some_iff.mp last
  obtain ⟨there, reply, bare⟩ : e.request.url = "https://ca/b" ∧
      e.reply.failure? = some (403, Octets.ofString "no") ∧ e.nonce?.isNone = true := by
    simpa only [Prod.mk.injEq] using same
  have text : Utf8.decodeLossy (Octets.ofString "no") = "no" := Utf8.decodeLossy_ofString "no"
  have flat : Json.isDeep "no" = false := by decide +kernel
  have transport := refused e 403 (Octets.ofString "no") he there reply (by decide)
  rw [text] at transport
  refine transport (fun v hv => ?_) flat fun d hd _ => ?_
  · rw [hv] at bare
    cases bare
  · exact List.all_eq_true.mp answered d (List.mem_of_getLast? hd)

/-- A reply that rejects the nonce and brings another one. -/
def rejectingReply : Reply :=
  .response 400 (.table [("Replay-Nonce", .text "n2")])
    (Octets.ofString "\x7b\"type\": \"urn:ietf:params:acme:error:badNonce\"\x7d") true

/-- The nonce of a request is rejected, and there is no response to its repetition: what is reported
is not the last response. -/
theorem refusals_reported_lost :
    let s := State.offered [rejectingReply, .silence "lost"]
    let n : Target := ⟨"https://ca/n".toList, []⟩
    let g : Target := ⟨"https://ca/b".toList, []⟩
    let r := (Operation.requestCertificate "https://ca/b").act sample s
    s.account.isTrue = true ∧ s.Offers n ∧ Target.read? "https://ca/b" = some g ∧ n.text ≠ g.text ∧
      ((History.lastResponse (r.2.history.drop s.history.length)).map
        fun e => (e.request.url, e.reply.status)) = some (g.text, 400) ∧
      ∃ x, r.1 = .error x ∧ x.status? = some 999 := by
  intro s n g r
  obtain ⟨known, offers⟩ := offers_offered [rejectingReply, .silence "lost"]
  refine ⟨known, offers, by decide +kernel, by decide +kernel, by decide +kernel, ?_⟩
  have failed : (match r.1 with | .error x => x.status? | .ok _ => none) = some 999 := by
    decide +kernel
  cases hr : r.1 with
  | error x =>
    rw [hr] at failed
    exact ⟨x, rfl, failed⟩
  | ok _ =>
    rw [hr] at failed
    cases failed

end Client

end AcmeClient
