import AcmeClient.Proofs.Client.Posting

/-!
# Repeating a request

RFC 8555, section 6.5: a request whose nonce was rejected is sent once more with another nonce.

* `Reply.RejectsNonce`: the replies that reject a nonce, with `Client.rejectsNonce_failure_iff`;
* `Jws.Repeats`: the same request with another nonce;
* `Client.State.rejected`, `Client.Unrepeated`: the state that a rejected request leaves, and why
  the request is not repeated then;
* `Client.Course`: the signed requests that one call sends, and how it ends;
* **`Client.course_post`**: every call takes such a course.
-/

namespace AcmeClient

/-- The reply rejects the nonce: its answer has the status 400, and the content, be it octets, a
text or a document that was read, is a problem document of the type that stands for that. -/
def Reply.RejectsNonce (raw : Bool) (r : Reply) : Prop :=
  ∃ a, Client.Answer.ofReply raw r = .ok a ∧ a.code = 400 ∧
    ∃ ms, Problem.ofBody a.body = .ok ms ∧ Members.get ms "type" = .text Client.badNonce

/-- The status of a reply; no response has the one that stands for that. -/
def Reply.status : Reply → Int
  | response code _ _ _ => code
  | silence _ => Client.Answer.silenceCode

/-- The status that an error reports. -/
def Error.status? : Error → Option Int
  | transport _ (.int code) _ => some code
  | _ => none

/-- The same request with another nonce: the same payload, the same members of the header in the
same order, and the same key. -/
structure Jws.Repeats (j k : Jws) : Prop where
  payload : k.payload = j.payload
  header : k.header = Members.set j.header "nonce" (Members.get k.header "nonce")
  names : k.header.map Prod.fst = j.header.map Prod.fst
  signer : k.signer = j.signer

namespace History

/-- The signed requests. -/
def signed (es : History) : History :=
  es.filter fun e => e.request.content.isSome

theorem signed_append (es ds : History) : signed (es ++ ds) = es.signed ++ ds.signed :=
  List.filter_append _ _

theorem signed_of_unsigned {es : History} (h : ∀ e ∈ es, e.request.content = none) :
    es.signed = [] :=
  List.filter_eq_nil_iff.mpr fun e he => by rw [h e he]; simp

theorem signed_concat {es : History} {e : Exchange} {j : Jws}
    (h : ∀ d ∈ es, d.request.content = none) (he : e.request.content = some j) :
    signed (es ++ [e]) = [e] := by
  rw [signed_append, signed_of_unsigned h, List.nil_append]
  exact List.filter_cons_of_pos (by rw [he]; rfl)

end History

namespace Client

/-! ## Rejected nonces -/

theorem rejectsNonce_eq_true_iff {a : Answer} :
    rejectsNonce a = .ok true ↔ a.code = 400 ∧
      ∃ ms, Problem.ofBody a.body = .ok ms ∧ Members.get ms "type" = .text badNonce := by
  unfold rejectsNonce
  by_cases hc : a.code = 400
  · rw [if_pos hc]
    cases hb : Problem.ofBody a.body with
    | error e => simp [bind, Except.bind]
    | ok ms =>
      cases ht : Members.get ms "type" <;> simp [bind, Except.bind, ht, hc]
  · rw [if_neg hc]
    simp [hc]

theorem ofText_badNonce_iff {s : String} :
    (∃ ms, Problem.ofText s = .ok ms ∧ Members.get ms "type" = .text badNonce) ↔
      ∃ ms, Json.read s = .ok (.object ms) ∧ Members.get ms "type" = .text badNonce := by
  unfold Problem.ofText
  rcases hr : Json.read s with f | v
  · cases f <;> by_cases hs : s = "" <;> simp [hs, Members.get, Members.find?]
  · cases v <;> simp [Problem.membersOf, Members.get, Members.find?]

/-- A response that counts as a failure rejects the nonce if it reads as such a document. -/
theorem rejectsNonce_failure_iff {raw : Bool} {code : Int} {headers : Headers} {b : Octets} :
    (Reply.response code headers b true).RejectsNonce raw ↔
      code = 400 ∧ ∃ ms, Json.read (Utf8.decodeLossy b) = .ok (.object ms) ∧
        Members.get ms "type" = .text badNonce := by
  rw [← ofText_badNonce_iff]
  constructor
  · rintro ⟨a, ha, hc, h⟩
    cases ha
    exact ⟨hc, h⟩
  · rintro ⟨hc, h⟩
    exact ⟨_, rfl, hc, h⟩

/-! ## The course of a call -/

/-- What a reply means for a call, which looks at an answer with the status 400 as a problem. -/
def outcome (raw : Bool) (r : Reply) : Except Error Answer := do
  let a ← Answer.ofReply raw r
  let _ ← rejectsNonce a
  .ok a

section Course

variable (c : Client) (url payload : Value) (given : Members) (raw : Bool)
  (key : Option PrivateKey) (accept : Option String) (s : State)

/-- The state in which a call is once the request `q`, sent in the state `w`, was answered and its
nonce rejected. -/
def State.rejected (w : State) (q : Request) : State :=
  (exchange q w.spending).2.reported c

/-- Why the request `j` is not repeated in the state `t`: another nonce is needed and none can be
got, or the header with the other nonce cannot be signed. -/
inductive Unrepeated (j : Jws) (t : State) : Error → Prop
  | nonce {e : Error} (needed : needsNonce t = true) (none : Nonceless c t e) : Unrepeated j t e
  | signature {e : Error} {w : State} (fresh : c.freshen t = (.ok (), w))
      (h : sign (key.getD c.key) (Members.set j.header "nonce" w.nonce) j.payload = .error e) :
      Unrepeated j t e

/-- The signed requests that one call sends, and how the call ends. -/
inductive Course : History → Except Error Answer → Prop
  | unsent {e : Error} (why : Unsent c url payload given key s e) : Course [] (.error e)
  /-- The nonce of the only request is not rejected. -/
  | once {p : Exchange} {j : Jws} (content : p.request.content = some j)
      (kept : ¬ p.reply.RejectsNonce raw) : Course [p] (outcome raw p.reply)
  /-- The nonce is rejected, and in the state that this leaves the request cannot be repeated. -/
  | unrepeated {w : State} {g : Target} {j : Jws} {e : Error}
      (ready : Ready c url payload given key s w g j)
      (rejected : (w.spending.made ⟨g.text, accept, some j⟩).reply.RejectsNonce raw)
      (why : Unrepeated c key j (w.rejected c ⟨g.text, accept, some j⟩) e) :
      Course [w.spending.made ⟨g.text, accept, some j⟩] (.error e)
  /-- The nonce is rejected, and the request is repeated. -/
  | repeated {p q : Exchange} {j k : Jws} (content : p.request.content = some j)
      (rejected : p.reply.RejectsNonce raw) (again : q.request.content = some k)
      (same : j.Repeats k) : Course [p, q] (Answer.ofReply raw q.reply)

variable {c url payload given key s} {w : State} {g : Target} {j : Jws}

theorem Idle.signed_eq {u : State} (h : Idle c payload s u) :
    ∃ new : History, u.history = s.history ++ new ∧ new.signed = [] := by
  obtain ⟨new, hnew, unsigned⟩ := h.history_eq
  exact ⟨new, hnew, History.signed_of_unsigned unsigned⟩

theorem Ready.signed_eq (h : Ready c url payload given key s w g j) :
    ∃ new : History, (exchange ⟨g.text, accept, some j⟩ w.spending).2.history = s.history ++ new ∧
      new.signed = [w.spending.made ⟨g.text, accept, some j⟩] := by
  obtain ⟨new, hnew, unsigned⟩ := (quiets_of_freshen h.fresh).history_eq
  refine ⟨new ++ [w.spending.made ⟨g.text, accept, some j⟩], ?_, ?_⟩
  · rw [history_exchange, history_spending, hnew, List.append_assoc]
  · exact History.signed_concat unsigned rfl

theorem Ready.account_rejected (h : Ready c url payload given key s w g j) (q : Request) :
    (w.rejected c q).account = s.account := by
  rw [State.rejected, account_reported, account_exchange, account_spending,
    (quiets_of_freshen h.fresh).account_eq]

theorem Ready.protect_again {t v : State} (h : Ready c url payload given key s w g j)
    (account : t.account = s.account) (fresh : c.freshen t = (.ok (), v)) :
    c.protect j.header v.nonce url v.account key = .ok (Members.set j.header "nonce" v.nonce) := by
  have same : v.account = w.account := calc
    v.account = t.account := (quiets_of_freshen fresh).account_eq
    _ = s.account := account
    _ = w.account := (quiets_of_freshen h.fresh).account_eq.symm
  rw [same]
  exact Client.protect_again h.header

/-- Where a request was sent, only a nonce or a signature can be missing for its repetition. -/
theorem Unsent.unrepeated {t : State} {e : Error} (h : Ready c url payload given key s w g j)
    (account : t.account = s.account) (hu : Unsent c url payload j.header key t e) :
    Unrepeated c key j t e := by
  cases hu with
  | payload hp =>
    rw [h.payload] at hp
    cases hp
  | nonce hn =>
    obtain ⟨needed, none⟩ := (freshen_eq_error_iff c t).mp (congrArg Prod.fst hn)
    exact .nonce needed none
  | header fresh hh =>
    rw [h.protect_again account fresh] at hh
    cases hh
  | signature fresh header payload hs =>
    obtain rfl := Except.ok.inj ((h.protect_again account fresh).symm.trans header)
    obtain rfl := Except.ok.inj (h.payload.symm.trans payload)
    exact .signature fresh hs
  | target ht =>
    rw [h.target] at ht
    cases ht

/-- The names of the members stay, since the header has a nonce already. -/
theorem nonce_of_protect {nonce account : Value} {ms : Members}
    (h : c.protect given nonce url account key = .ok ms) : ms.find? "nonce" = some nonce := by
  unfold protect at h
  cases key with
  | none =>
    dsimp only at h
    obtain rfl := Except.ok.inj h
    split_ifs <;> simp
  | some k =>
    dsimp only at h
    cases hk : k.publicKey with
    | error e =>
      rw [hk] at h
      cases h
    | ok p =>
      rw [hk] at h
      obtain rfl := Except.ok.inj h
      simp

theorem Ready.repeats {t w' : State} {g' : Target} {k : Jws}
    (h : Ready c url payload given key s w g j) (account : t.account = s.account)
    (h' : Ready c url payload j.header key t w' g' k) : j.Repeats k := by
  have header : k.header = Members.set j.header "nonce" w'.nonce :=
    Except.ok.inj (h'.header.symm.trans (h.protect_again account h'.fresh))
  refine ⟨Except.ok.inj (h'.payload.symm.trans h.payload), ?_, ?_, ?_⟩
  · rw [header, Members.get_set_self]
  · rw [header, Members.names_set_of_find? (nonce_of_protect h.header)]
  · have signer := (sign_eq_ok_iff.mp h.signed).2.2.2.1
    have signer' := (sign_eq_ok_iff.mp h'.signed).2.2.2.1
    exact Except.ok.inj (signer'.symm.trans signer)

theorem post_of_kept (h : Ready c url payload given key s w g j)
    (kept : ¬ (w.spending.made ⟨g.text, accept, some j⟩).reply.RejectsNonce raw) :
    c.post url payload given raw key accept s =
      (outcome raw (w.spending.made ⟨g.text, accept, some j⟩).reply,
        (exchange ⟨g.text, accept, some j⟩ w.spending).2) := by
  rw [post_eq, postOnce_of_ready c url payload given raw key accept s h]
  unfold outcome
  unfold Reply.RejectsNonce at kept
  cases ha : Answer.ofReply raw (w.spending.made ⟨g.text, accept, some j⟩).reply with
  | error e => rfl
  | ok a =>
    dsimp only [Except.map]
    rcases hr : rejectsNonce a with e | _ | _
    · simp only [bind, Except.bind, hr]
    · simp only [bind, Except.bind, hr]
    · exact absurd ⟨a, ha, rejectsNonce_eq_true_iff.mp hr⟩ kept

theorem post_of_rejected (h : Ready c url payload given key s w g j)
    (rejected : (w.spending.made ⟨g.text, accept, some j⟩).reply.RejectsNonce raw) :
    let t := w.rejected c ⟨g.text, accept, some j⟩
    c.post url payload given raw key accept s =
      ((c.postOnce url payload j.header raw key accept t).1.map Prod.snd,
        (c.postOnce url payload j.header raw key accept t).2) := by
  obtain ⟨a, ha, hr⟩ := rejected
  rw [post_eq, postOnce_of_ready c url payload given raw key accept s h, ha]
  dsimp only [Except.map]
  rw [rejectsNonce_eq_true_iff.mpr hr]
  rfl

theorem course_of_rejected (h : Ready c url payload given key s w g j)
    (rejected : (w.spending.made ⟨g.text, accept, some j⟩).reply.RejectsNonce raw) :
    ∃ new : History, (c.post url payload given raw key accept s).2.history = s.history ++ new ∧
      (∀ e ∈ new.signed, e.request.url = g.text) ∧
      Course c url payload given raw key accept s new.signed
        (c.post url payload given raw key accept s).1 := by
  obtain ⟨new, hnew, signed⟩ := h.signed_eq accept
  have account := h.account_rejected ⟨g.text, accept, some j⟩
  have left : (w.rejected c ⟨g.text, accept, some j⟩).history = s.history ++ new := by
    rw [State.rejected, history_reported, hnew]
  rw [post_of_rejected raw accept h rejected]
  dsimp only
  rcases postOnce_cases c url payload j.header raw key accept
      (w.rejected c ⟨g.text, accept, some j⟩) with ⟨e, u, he, idle, why⟩ | ⟨w', g', k, hr⟩
  · obtain ⟨rest, hrest, none⟩ := idle.signed_eq
    rw [he]
    refine ⟨new ++ rest, by rw [hrest, left, List.append_assoc], ?_⟩
    rw [History.signed_append, signed, none, List.append_nil]
    exact ⟨by simp, .unrepeated h rejected (why.unrepeated h account)⟩
  · obtain ⟨rest, hrest, again⟩ := hr.signed_eq accept
    obtain rfl : g = g' := Option.some.inj (h.target.symm.trans hr.target)
    rw [postOnce_of_ready c url payload j.header raw key accept _ hr]
    refine ⟨new ++ rest, by rw [hrest, left, List.append_assoc], ?_⟩
    rw [History.signed_append, signed, again, List.singleton_append]
    have result : ∀ r : Except Error Answer, (r.map fun a => (k.header, a)).map Prod.snd = r := by
      intro r
      cases r <;> rfl
    rw [result]
    exact ⟨by simp, .repeated rfl rejected rfl (h.repeats account hr)⟩

variable (c url payload given key s)

/-- **Every call takes such a course**: it sends at most two signed requests, all of them to its
address, and the second one only if the nonce of the first one was rejected. -/
theorem course_post :
    ∃ new : History, (c.post url payload given raw key accept s).2.history = s.history ++ new ∧
      (∀ e ∈ new.signed, ∃ g, Target.read? url.display = some g ∧ e.request.url = g.text) ∧
      Course c url payload given raw key accept s new.signed
        (c.post url payload given raw key accept s).1 := by
  rcases postOnce_cases c url payload given raw key accept s with
    ⟨e, u, he, idle, why⟩ | ⟨w, g, j, ready⟩
  · obtain ⟨new, hnew, none⟩ := idle.signed_eq
    rw [post_eq, he]
    refine ⟨new, hnew, ?_⟩
    rw [none]
    exact ⟨by simp, .unsent why⟩
  by_cases rejected : (w.spending.made ⟨g.text, accept, some j⟩).reply.RejectsNonce raw
  · obtain ⟨new, hnew, there, course⟩ := course_of_rejected raw accept ready rejected
    exact ⟨new, hnew, fun e he => ⟨g, ready.target, there e he⟩, course⟩
  · obtain ⟨new, hnew, signed⟩ := ready.signed_eq accept
    rw [post_of_kept raw accept ready rejected]
    refine ⟨new, hnew, ?_⟩
    rw [signed]
    refine ⟨fun e he => ⟨g, ready.target, ?_⟩, .once rfl rejected⟩
    obtain rfl := List.mem_singleton.mp he
    rfl

end Course

/-- A nonce is rejected, and the call ends with the status of the directory, which is needed for
another nonce, in place of that of the request. -/
theorem course_post_unrepeated :
    let s := sample.run [.requestResource "https://ca/a"] (.start (.text "https://ca/1") 0
      [("https://ca/a", [sampleReply "n1"]),
       ("https://ca/directory", [.response 503 .missing [] true]),
       ("https://ca/b", [.response 400 .missing
        (Octets.ofString "\x7b\"type\": \"urn:ietf:params:acme:error:badNonce\"\x7d") true])])
    let r := sample.post (.text "https://ca/b") .null [] false none none s
    r.2.history.signed.map (fun e => e.reply.status) = [400] ∧
      ∃ e, r.1 = .error e ∧ e.status? = some 503 := by
  intro s r
  refine ⟨by decide +kernel, ?_⟩
  have failed : (match r.1 with | .error e => e.status? | .ok _ => none) = some 503 := by
    decide +kernel
  cases hr : r.1 with
  | error e =>
    rw [hr] at failed
    exact ⟨e, rfl, failed⟩
  | ok a =>
    rw [hr] at failed
    cases failed

end Client

end AcmeClient
