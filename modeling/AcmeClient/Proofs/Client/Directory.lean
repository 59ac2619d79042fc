import AcmeClient.Proofs.Client.Keeping
import AcmeClient.Proofs.Json.RoundTrip
import AcmeClient.Proofs.Text.Utf8

/-!
# The directory is fetched until it is known

RFC 8555, section 7.1.1. The directory is asked for once in a while, until it is brought; from then
on nothing is asked for.

* `Client.directoryOf`: the directory in a reply;
* `Client.ReadsAs`, `Client.readsAs_content`: how content is read as a document;
* `Reply.isObscure`: the replies whose refusal is not reported as one of the authority;
* **`Client.directory_of_unknown`**: one request for the directory;
* `Client.Begins`, **`Client.begins_act`**: the actions that begin with it;
* `Client.Learned`: where a directory in the memory comes from;
* **`Client.directory_once_known`**: the directory of a run.
-/

namespace AcmeClient

/-- A text is nested deeper than the reader follows. -/
def Json.isDeep (s : String) : Bool :=
  match Json.read s with
  | .error .deep => true
  | _ => false

/-- The problem document of a body is nested deeper than the reader follows. -/
def Problem.isDeep : Value → Bool
  | .text s => Json.isDeep s
  | .bytes b => Json.isDeep (Utf8.decodeLossy b)
  | _ => false

/-- A reply cannot be read as a document, and its refusal is not reported as one by the authority:
it is no text, or it goes beyond the limits of the reader. -/
def Reply.isObscure : Reply → Bool
  | silence reason => Problem.isDeep (.text reason)
  | response _ _ b true => Problem.isDeep (.bytes b)
  | response _ _ b false =>
    match Utf8.decode? b with
    | none => true
    | some s =>
      match Json.read s with
      | .ok v => Problem.isDeep v
      | .error .malformed => false
      | .error _ => true

namespace Problem

variable {α : Type} {message s : String} {code body : Value} {e : Error}

theorem ofText_eq_error_iff : ofText s = .error e ↔
    Json.isDeep s = true ∧ e = Json.Fault.deep.error := by
  unfold Json.isDeep ofText
  rcases Json.read s with (_ | _ | _) | v <;> simp [eq_comm]

theorem ofBody_eq_error_iff : ofBody body = .error e ↔
    isDeep body = true ∧ e = Json.Fault.deep.error := by
  unfold ofBody isDeep
  cases body with
  | bytes b => exact ofText_eq_error_iff
  | text s => exact ofText_eq_error_iff
  | _ => simp

/-- **A refusal is reported as one unless its document is nested too deeply.** -/
theorem isOwn_reject (h : (reject message code body : Except Error α) = .error e) :
    e.isOwn = !isDeep body := by
  unfold reject rejection at h
  cases hb : ofBody body with
  | error x =>
    rw [hb] at h
    cases h
    obtain ⟨deep, rfl⟩ := ofBody_eq_error_iff.mp hb
    rw [deep]
    rfl
  | ok ms =>
    rw [hb] at h
    cases h
    have flat : isDeep body = false := by
      rw [← Bool.not_eq_true]
      intro deep
      cases hb.symm.trans (ofBody_eq_error_iff.mpr ⟨deep, rfl⟩)
    rw [flat]
    rfl

end Problem

namespace Client

open Relation

/-- The directory in an answer. -/
def Answer.directory (a : Answer) : Except Error Members :=
  match a.body with
  | .object ms =>
    if a.isRefusal then Problem.reject "Could not retrieve directory" (.int a.code) a.body
    else .ok ms
  | _ => Problem.reject "Could not retrieve directory" (.int a.code) a.body

/-- The directory in a reply. -/
def directoryOf (r : Reply) : Except Error Members := do
  let a ← Answer.ofReply false r
  a.directory

section Replies

variable {a : Answer} {r : Reply} {ms : Members} {e : Error}

theorem Answer.directory_eq_ok_iff :
    a.directory = .ok ms ↔ a.isRefusal = false ∧ a.body = .object ms := by
  obtain ⟨x, hx⟩ := Problem.exists_reject (α := Members) "Could not retrieve directory"
    (.int a.code) a.body
  unfold directory
  rw [hx]
  cases a.isRefusal <;> cases a.body <;> simp

theorem Answer.isOwn_directory (h : a.directory = .error e) :
    e.isOwn = !Problem.isDeep a.body := by
  unfold directory at h
  split at h
  · rename_i ms hb
    split_ifs at h
    rw [Problem.isOwn_reject h, hb]
  · exact Problem.isOwn_reject h

variable {code : Int} {headers : Headers} {b : Octets} {v : Value}

theorem ofReply_document (code : Int) (headers : Headers) (b : Octets) :
    Answer.ofReply false (.response code headers b false) =
      (Answer.content b >>= fun v => .ok ⟨code, v, headers⟩) :=
  rfl

/-- The error for a text that is not JSON. -/
def notJson : Error :=
  .caused .protocol "Could not parse non-raw result (expected JSON)" Json.Fault.malformed.error

/-- What becomes of content that is read as a document. -/
inductive ReadsAs : Octets → Except Error Value → Prop
  | undecodable {b : Octets} (h : Utf8.decode? b = none) :
      ReadsAs b (.error (.plain .undecodable "not a text"))
  | empty : ReadsAs (Octets.ofString "") (.ok (.text ""))
  | document {s : String} {v : Value} (some : s ≠ "") (read : Json.read s = .ok v) :
      ReadsAs (Octets.ofString s) (.ok v)
  | garbage {s : String} (some : s ≠ "") (read : Json.read s = .error .malformed) :
      ReadsAs (Octets.ofString s) (.error notJson)
  /-- The text goes beyond a limit of the reader. -/
  | beyond {s : String} {f : Json.Fault} (some : s ≠ "") (read : Json.read s = .error f)
      (limit : f ≠ .malformed) : ReadsAs (Octets.ofString s) (.error f.error)

/-- **Content is read in one of these ways.** -/
theorem readsAs_content (b : Octets) : ReadsAs b (Answer.content b) := by
  unfold Answer.content Answer.document
  cases hb : Utf8.decode? b with
  | none => exact .undecodable hb
  | some s =>
    obtain rfl := Utf8.decode?_eq_some_iff_octets.mp hb
    dsimp only
    split_ifs with hs
    · subst hs
      exact .empty
    · cases hr : Json.read s with
      | ok v => exact .document hs hr
      | error f =>
        cases f with
        | malformed => exact .garbage hs hr
        | longInteger | deep => exact .beyond hs hr nofun

theorem isObscure_of_content_ok (h : Answer.content b = .ok v) :
    (Reply.response code headers b false).isObscure = Problem.isDeep v := by
  have reads := readsAs_content b
  rw [h] at reads
  cases reads with
  | empty =>
    rw [Reply.isObscure, Utf8.decode?_ofString]
    rfl
  | document some read =>
    rw [Reply.isObscure, Utf8.decode?_ofString]
    simp only [read]

theorem isOwn_of_content_error (h : Answer.content b = .error e) :
    e.isOwn = !(Reply.response code headers b false).isObscure := by
  have reads := readsAs_content b
  rw [h] at reads
  cases reads with
  | undecodable strange =>
    rw [Reply.isObscure, strange]
    rfl
  | garbage some read =>
    rw [Reply.isObscure, Utf8.decode?_ofString]
    simp only [read]
    rfl
  | @beyond s f some read limit =>
    rw [Reply.isObscure, Utf8.decode?_ofString]
    simp only [read]
    cases f with
    | malformed => exact absurd rfl limit
    | longInteger | deep => rfl

/-- **Without a directory in the reply there is an error of the client's own, unless the reply is
obscure.** -/
theorem isOwn_directoryOf (h : directoryOf r = .error e) : e.isOwn = !r.isObscure := by
  cases r with
  | silence reason => exact @Answer.isOwn_directory ⟨_, .text reason, _⟩ e h
  | response code headers b failure =>
    cases failure with
    | true => exact @Answer.isOwn_directory ⟨code, .text (Utf8.decodeLossy b), _⟩ e h
    | false =>
      rw [directoryOf, ofReply_document] at h
      cases hc : Answer.content b with
      | error x =>
        rw [hc] at h
        cases h
        exact isOwn_of_content_error hc
      | ok v =>
        rw [hc] at h
        rw [isObscure_of_content_ok hc]
        exact @Answer.isOwn_directory ⟨code, v, headers⟩ e h

end Replies

/-! ## One request -/

variable {c : Client} {P : Draft → Prop} {s t u : State} {url : Value} {g : Target} {ms : Members}

theorem keepDirectory_eq (a : Answer) (s : State) : (c.keepDirectory a s).1 = a.directory ∧
    (c.keepDirectory a s).2.history = s.history ∧
    (c.keepDirectory a s).2.directory = a.directory.toOption.or s.directory := by
  have refuse : (c.refuseDirectory a s).1 =
        Problem.reject "Could not retrieve directory" (.int a.code) a.body ∧
      (c.refuseDirectory a s).2.history = s.history ∧
      (c.refuseDirectory a s).2.directory = s.directory :=
    ⟨rfl, rfl, rfl⟩
  obtain ⟨x, hx⟩ := Problem.exists_reject (α := Members) "Could not retrieve directory"
    (.int a.code) a.body
  rw [hx] at refuse
  unfold keepDirectory Answer.directory
  rw [hx]
  cases a.body with
  | object ms =>
    dsimp only
    split_ifs
    · exact refuse
    · exact ⟨rfl, rfl, rfl⟩
  | _ => exact refuse

/-- The request for the directory, and what becomes of its reply. -/
structure Tries (c : Client) (s : State) (g : Target) : Prop where
  /-- One request is made. -/
  sent : (c.directory s).2.history = s.history ++ [s.made ⟨g.text, none, none⟩]
  /-- The directory is kept if it is brought. -/
  kept : ∀ ms, (c.directory s).1 = .ok ms →
    c.BringsDirectory (s.made ⟨g.text, none, none⟩) ms ∧ (c.directory s).2.directory = some ms
  /-- Otherwise there still is none, and an error, which is the client's own unless the reply is
  obscure. -/
  failed : ∀ e, (c.directory s).1 = .error e →
    (∀ ms, ¬ c.BringsDirectory (s.made ⟨g.text, none, none⟩) ms) ∧
      (c.directory s).2.directory = none ∧
      e.isOwn = !(s.made ⟨g.text, none, none⟩).reply.isObscure

theorem bringsDirectory_iff {e : Exchange} (hu : c.directoryUrl = .ok url)
    (hg : Target.read? url.display = some g) (he : e.request = ⟨g.text, none, none⟩) :
    c.BringsDirectory e ms ↔ directoryOf e.reply = .ok ms := by
  unfold directoryOf
  rw [Action.except_bind_eq_ok_iff]
  simp only [Answer.directory_eq_ok_iff]
  exact ⟨fun h => h.2, fun h => ⟨⟨url, g, hu, hg, he⟩, h⟩⟩

/-- The answer to the one request for the directory decides. -/
theorem directory_of_unknown (unknown : s.directory = none) (hu : c.directoryUrl = .ok url)
    (hg : Target.read? url.display = some g) :
    (c.directory s).1 = directoryOf (s.made ⟨g.text, none, none⟩).reply ∧
      (c.directory s).2.history = s.history ++ [s.made ⟨g.text, none, none⟩] ∧
      (c.directory s).2.directory =
        (directoryOf (s.made ⟨g.text, none, none⟩).reply).toOption := by
  have fetched : fetch url s = (Answer.ofReply false (s.made ⟨g.text, none, none⟩).reply,
      (exchange ⟨g.text, none, none⟩ s).2) := by
    obtain ⟨hn, -⟩ | ⟨g', hg', h⟩ := fetch_cases s url
    · cases hn.symm.trans hg
    · cases hg.symm.trans hg'
      exact h
  rw [directory_eq, unknown]
  dsimp only
  rw [Action.ofExcept_bind_of_ok hu]
  unfold directoryOf
  cases ha : Answer.ofReply false (s.made ⟨g.text, none, none⟩).reply with
  | error e =>
    rw [Action.bind_of_error (fetched.trans (congrArg (·, _) ha))]
    exact ⟨rfl, history_exchange .., (directory_exchange ..).trans unknown⟩
  | ok a =>
    rw [Action.bind_of_ok (fetched.trans (congrArg (·, _) ha))]
    obtain ⟨result, history, directory⟩ :=
      @keepDirectory_eq c a (exchange ⟨g.text, none, none⟩ s).2
    refine ⟨result, history.trans (history_exchange ..), directory.trans ?_⟩
    rw [directory_exchange, unknown, Option.or_none]
    rfl

/-- **A directory that is not known is asked for once.** -/
theorem tries_directory (unknown : s.directory = none) (hu : c.directoryUrl = .ok url)
    (hg : Target.read? url.display = some g) : c.Tries s g := by
  obtain ⟨result, history, directory⟩ := directory_of_unknown unknown hu hg
  refine ⟨history, fun ms h => ?_, fun e h => ?_⟩
  · rw [result] at h
    rw [bringsDirectory_iff hu hg rfl, directory, h]
    exact ⟨rfl, rfl⟩
  · rw [result] at h
    refine ⟨fun ms => ?_, ?_, isOwn_directoryOf h⟩
    · rw [bringsDirectory_iff hu hg rfl, h]
      nofun
    · rw [directory, h]
      rfl

/-! ## Actions that begin with it -/

/-- The action begins with asking for the directory in the state `s`: if that fails the action fails
with the same error, and otherwise it goes on from there. -/
structure Begins {α : Type} (c : Client) (s : State) (x : Action State α) : Prop where
  failed : ∀ e u, c.directory s = (.error e, u) → x s = (.error e, u)
  goes : ∀ ms u, c.directory s = (.ok ms, u) → Extends u (x s).2

variable {α β : Type} {x y : Action State α} {f : α → Action State β}

theorem begins_directory (c : Client) (s : State) : c.Begins s c.directory where
  failed _ _ h := h
  goes _ u h := by
    rw [h]
    exact .of_eq rfl rfl

theorem Begins.congr (h : c.Begins s x) (same : y s = x s) : c.Begins s y :=
  ⟨fun e u hd => same.trans (h.failed e u hd), fun ms u hd => same ▸ h.goes ms u hd⟩

theorem Begins.bind (h : c.Begins s x) (hf : ∀ a t, Extends t (f a t).2) :
    c.Begins s (x >>= f) where
  failed e u hd := Action.bind_of_error (h.failed e u hd)
  goes ms u hd := by
    have first := h.goes ms u hd
    rcases hx : x s with ⟨e | a, t⟩
    · rw [Action.bind_of_error hx]
      rwa [hx] at first
    · rw [Action.bind_of_ok hx]
      rw [hx] at first
      exact first.trans (hf a t)

theorem Begins.forget (h : c.Begins s x) : c.Begins s x.forget := by
  rw [Action.forget_eq]
  exact h.bind fun _ _ => .of_eq rfl rfl

theorem begins_resourceUrl? (name : String) : c.Begins s (c.resourceUrl? name) :=
  (begins_directory c s).bind fun _ _ => .of_eq rfl rfl

theorem begins_resourceUrl (name : String) : c.Begins s (c.resourceUrl name) :=
  (begins_resourceUrl? name).bind fun v t => by
    cases v <;> exact .of_eq rfl rfl

theorem begins_freshen (h : needsNonce s = true) : c.Begins s c.freshen :=
  ((begins_resourceUrl "newNonce").bind fun url t =>
    extends_bind ((extends_change c).quiets (quiet_fetch c t url)) fun _ _ => .of_eq rfl rfl).congr
      (by rw [freshen_eq, if_pos h])

theorem begins_post {payload : Value} {text : String} (hp : payloadText payload = .ok text)
    (h : needsNonce s = true) (url : Value) (given : Members) (raw : Bool)
    (key : Option PrivateKey) (accept : Option String) :
    c.Begins s (c.post url payload given raw key accept) := by
  have once : c.Begins s (c.postOnce url payload given raw key accept) :=
    ((begins_freshen h).bind fun _ t =>
      spend_rel c (extends_change c) url given raw key accept text t).congr
        (Action.ofExcept_bind_of_ok hp)
  exact once.bind fun p t => repeat_rel c (extends_change c) url payload raw key accept p.1 p.2 t

theorem begins_login (h : s.account.isTrue = false) : c.Begins s c.login := by
  refine ((begins_resourceUrl "newAccount").bind fun url t => ?_).congr
    (by rw [login_eq, if_neg (by simp [h])])
  refine extends_bind (post_rel c (extends_change c) ..) fun a t => ?_
  obtain ⟨v, -, -, e, hk⟩ | ⟨e, hk⟩ := keepAccount_cases c t a
  · rw [hk]
    exact .of_eq rfl rfl
  · rw [hk]
    exact .of_eq rfl rfl

/-- Logging in and then doing something else begins with it if the account is not known, or if what
is done then does. -/
theorem begins_login_bind {x : Unit → Action State α} (hx : ∀ t, Extends t (x () t).2)
    (h : s.account.isTrue = false ∨ c.Begins s (x ())) : c.Begins s (c.login >>= x) := by
  cases ha : s.account.isTrue with
  | false => exact (begins_login ha).bind fun _ => hx
  | true =>
    have begins := h.resolve_left (by rw [ha]; exact Bool.noConfusion)
    refine begins.congr (Action.bind_of_ok ?_)
    rw [login_eq, if_pos ha]

/-- The operation needs the directory in the state `s`. -/
def Operation.Needs (s : State) : Operation → Prop
  | resourceUrl _ | resourceUrl? _ | directory => True
  | login => s.account.isTrue = false
  | requestCertificate _ => s.account.isTrue = false ∨ needsNonce s = true
  | sendSigned _ payload none =>
    s.account.isTrue = false ∨ needsNonce s = true ∧ ∃ text, payloadText payload = .ok text
  | sendSigned _ payload (some _) => needsNonce s = true ∧ ∃ text, payloadText payload = .ok text
  | requestResource _ | advance _ | route _ _ => False

/-- **An operation that needs the directory begins with asking for it.** -/
theorem begins_act (o : Operation) (h : o.Needs s) : c.Begins s (o.act c) := by
  cases o with
  | resourceUrl name => exact (begins_resourceUrl name).forget
  | resourceUrl? name => exact (begins_resourceUrl? name).forget
  | directory => exact (begins_directory c s).forget
  | login => exact begins_login h
  | requestCertificate url =>
    refine Begins.forget (begins_login_bind (fun t => ?_) (h.imp_right fun nonce => ?_))
    · exact extends_bind (post_rel c (extends_change c) ..) fun _ _ => .of_eq rfl rfl
    · have text : payloadText .null = .ok "" := rfl
      exact (begins_post text nonce ..).bind fun _ _ => .of_eq rfl rfl
  | sendSigned url payload key =>
    cases key with
    | none =>
      refine Begins.forget
        (begins_login_bind (fun t => ?_) (h.imp_right fun ⟨nonce, text, hp⟩ => ?_))
      · exact extends_bind (post_rel c (extends_change c) ..) fun _ _ => .of_eq rfl rfl
      · exact (begins_post hp nonce ..).bind fun _ _ => .of_eq rfl rfl
    | some k =>
      obtain ⟨nonce, text, hp⟩ := h
      exact ((begins_post hp nonce ..).bind fun _ _ => .of_eq rfl rfl).forget
  | requestResource | advance | route => exact h.elim

/-! ## Runs -/

/-- Where the directory in the state `t` comes from: there is none, or the last answer brought it in
a state on the way from `s`, when there was none. -/
inductive Learned (c : Client) (P : Draft → Prop) (s t : State) : Prop
  | unknown (h : t.directory = none)
  | known {r : State} {e : Exchange} {ms : Members} (reached : Steps c P s r)
      (before : r.directory = none) (last : e ∈ r.history.getLast?)
      (brought : c.BringsDirectory e ms) (later : r.history <+: t.history)
      (after : t.directory = some ms) : Learned c P s t

theorem Learned.extend (h : c.Learned P s t) (extends' : Extends t u)
    (same : t.directory = none → u.directory = none) : c.Learned P s u := by
  cases h with
  | unknown h => exact .unknown (same h)
  | known reached before last brought later after =>
    exact .known reached before last brought (later.trans extends'.history)
      (extends'.directory _ after)

theorem Learned.quiets (h : c.Learned P s t) (hs : Steps c P s t) (hq : Quiets c t u) :
    c.Learned P s u := by
  induction hq with
  | refl => exact h
  | @tail v u quiets step ih =>
    cases step with
    | say => exact ih.extend (.of_eq rfl rfl) id
    | ask q _ => exact ih.extend (extends_exchange q v) (directory_exchange q v).trans
    | learn ms unknown brought =>
      -- the only change that brings a directory: the answer was just added to the history
      obtain ⟨e, last, brought⟩ := brought
      exact .known (hs.trans (Quiets.steps quiets)) unknown last brought List.prefix_rfl rfl

theorem Learned.step (h : c.Learned P s t) (hs : Steps c P s t) (step : Step c P t u) :
    c.Learned P s u := by
  cases step with
  | quiet hq => exact h.quiets hs (.single hq)
  | waste => exact h.extend (.of_eq rfl rfl) id
  | surround w hw => exact h.extend (.of_eq rfl hw) id
  | settle => exact h.extend (.of_eq rfl rfl) id
  | @post w q j d _ _ written =>
    have spent : Extends w w.spending := .of_eq rfl rfl
    exact (h.quiets hs (quiets_of_freshen written.fresh)).extend
      (spent.trans (extends_exchange q _)) (directory_exchange q w.spending).trans

theorem learned_of_steps (hs : s.directory = none) (h : Steps c P s t) : c.Learned P s t := by
  induction h with
  | refl => exact .unknown hs
  | tail steps step ih => exact ih.step steps step

/-- **The directory is asked for until it is brought, and then it stays.**

In every state of a run, also within an operation, there is no directory, or the last answer brought
it when there was none. As long as there is none, every operation that needs it begins with one
request for it. If that does not bring it, there still is none, and the operation fails with an
error that is the client's own unless the reply is obscure. Once there is one, it stays, and it is
handed out without anything being sent. -/
theorem directory_once_known (c : Client) (account : Value) (clock : Int) (routes : Routes Reply)
    (ops : List Operation) (P : Draft → Prop) :
    Steps c (fun d => ∃ o ∈ ops, o.Permits d) (.start account clock routes)
      (c.run ops (.start account clock routes)) ∧
    ∀ t, Steps c P (.start account clock routes) t →
      c.Learned P (.start account clock routes) t ∧
      (t.directory = none →
        (∀ url g, c.directoryUrl = .ok url → Target.read? url.display = some g → c.Tries t g) ∧
        ∀ o : Operation, o.Needs t → c.Begins t (o.act c)) ∧
      ∀ ms, t.directory = some ms → ∀ u, Steps c P t u → u.directory = some ms ∧
        c.directory u = (.ok ms, u) ∧ ∀ name, c.resourceUrl? name u = (.ok (ms.get name), u) := by
  refine ⟨steps_run c _ ops, fun t ht => ⟨learned_of_steps rfl ht, fun unknown => ?_, ?_⟩⟩
  · exact ⟨fun url g => tries_directory unknown, fun o => begins_act o⟩
  · intro ms known u hu
    have kept := hu.extends.directory ms known
    have handed : c.directory u = (.ok ms, u) := by rw [directory_eq, kept]
    exact ⟨kept, handed, fun name => Action.bind_of_ok handed⟩

theorem directoryOf_long {ds : List Char} (code : Int) (headers : Headers)
    (hds : ∀ c ∈ ds, (Digit.ascii? c).isSome = true) (h0 : ds.head? ≠ some '0')
    (long : Json.digitLimit < ds.length) :
    directoryOf (.response code headers (Octets.ofString (String.ofList ds)) false) =
      .error Json.Fault.longInteger.error := by
  have read := Json.read_long hds h0 long
  have some : String.ofList ds ≠ "" := fun h => by
    rw [h] at read
    cases read
  have content : Answer.content (Octets.ofString (String.ofList ds)) =
      .error Json.Fault.longInteger.error := by
    unfold Answer.content Answer.document
    rw [Utf8.decode?_ofString]
    dsimp only
    rw [if_neg some, read]
  rw [directoryOf, ofReply_document, content]
  rfl

/-- A reply whose content is an integer with too many digits. -/
def longReply : Reply :=
  .response 200 (.table []) (Octets.ofString (String.ofList (List.replicate 4301 '1'))) false

theorem directoryOf_longReply : directoryOf longReply = .error Json.Fault.longInteger.error := by
  refine directoryOf_long 200 (.table []) (fun c hc => ?_) ?_ ?_
  · rw [List.eq_of_mem_replicate hc]
    decide
  · rw [List.head?_replicate]
    decide
  · rw [List.length_replicate]
    decide

/-- It is answered with success and is no directory, but the error is not one of the client's
own. -/
theorem directory_of_longReply :
    (sample.directory (.start .null 0 [("https://ca/directory", [longReply])])).1 =
        .error Json.Fault.longInteger.error ∧
      Json.Fault.longInteger.error.isOwn = false := by
  refine ⟨?_, rfl⟩
  have asked := @directory_of_unknown sample
    (.start .null 0 [("https://ca/directory", [longReply])]) (.text "https://ca/directory")
    ⟨"https://ca/directory".toList, []⟩ rfl rfl (by decide +kernel)
  exact asked.1.trans directoryOf_longReply

end Client

end AcmeClient
