import AcmeClient.Proofs.CertificateResource.Loading
import AcmeClient.Proofs.Client.Directory
import AcmeClient.Proofs.RenewalInfo.Operations

/-!
# The content of responses

A response that was not refused brings octets, which are read as a document. Where that fails, the
error is one of the client's own if the octets are a text within the limits of the reader. Otherwise
it is another one, which is not reported as a failure to load what was asked for.

* `Octets.Readable`, `Reply.Readable`: the content that the reader comes to terms with;
* `Client.Takes`, `Client.takes_ofReply`: what becomes of a response;
* `Client.readable_iff`, `Client.isObscure_eq_false_iff`: whose error it is where there is no
  answer;
* **`Client.own_iff_readable`**: documents and directories, and who asks for them.
-/

namespace AcmeClient

/-- The octets are a text that is JSON or is not, but does not go beyond the limits of the
reader. -/
def Octets.Readable (b : Octets) : Prop :=
  ∃ s, b = ofString s ∧ Json.read s ≠ .error .longInteger ∧ Json.read s ≠ .error .deep

/-- The content of a response that counts as a failure is not read as a document. -/
def Reply.Readable : Reply → Prop
  | response _ _ b false => b.Readable
  | _ => True

namespace Client

variable {α : Type} {take : Answer → Except Error α} {code : Int} {headers : Headers} {b : Octets}
  {failure : Bool} {e : Error}

/-- What becomes of a response whose answer is handed to `take`. -/
inductive Takes (take : Answer → Except Error α) : Reply → Except Error α → Prop
  /-- The content of a failure is a text. -/
  | failure {code : Int} {headers : Headers} {b : Octets} :
      Takes take (.response code headers b true)
        (take ⟨code, .text (Utf8.decodeLossy b), if headers.isPresent then headers else .table []⟩)
  /-- No content is the empty text. -/
  | empty {code : Int} {headers : Headers} :
      Takes take (.response code headers [] false) (take ⟨code, .text "", headers⟩)
  /-- A document in UTF-8. -/
  | document {code : Int} {headers : Headers} {s : String} {v : Value} (read : Json.read s = .ok v) :
      Takes take (.response code headers (Octets.ofString s) false) (take ⟨code, v, headers⟩)
  /-- Any other text is an error of the protocol. -/
  | garbage {code : Int} {headers : Headers} {s : String} (content : s ≠ "")
      (read : Json.read s = .error .malformed) :
      Takes take (.response code headers (Octets.ofString s) false) (.error notJson)
  /-- What cannot be read is an error that is not the client's own. -/
  | unreadable {code : Int} {headers : Headers} {b : Octets} {e : Error} (h : ¬ b.Readable)
      (foreign : e.isOwn = false) : Takes take (.response code headers b false) (.error e)

theorem ofString_empty : Octets.ofString "" = [] := by
  rw [Octets.ofString_eq]
  rfl

theorem not_readable_of_decode? (h : Utf8.decode? b = none) : ¬ b.Readable := by
  rintro ⟨s, rfl, -⟩
  rw [Utf8.decode?_ofString] at h
  cases h

theorem readable_ofString_iff {s : String} : (Octets.ofString s).Readable ↔
    Json.read s ≠ .error .longInteger ∧ Json.read s ≠ .error .deep := by
  constructor
  · rintro ⟨t, same, h⟩
    rwa [Utf8.ofString_injective same]
  · exact fun h => ⟨s, rfl, h⟩

theorem not_readable_of_beyond {s : String} {f : Json.Fault} (read : Json.read s = .error f)
    (limit : f ≠ .malformed) : ¬ (Octets.ofString s).Readable := by
  rw [readable_ofString_iff, read]
  cases f with
  | malformed => exact absurd rfl limit
  | longInteger => exact fun h => h.1 rfl
  | deep => exact fun h => h.2 rfl

theorem isOwn_error_of_ne {f : Json.Fault} (limit : f ≠ .malformed) : f.error.isOwn = false := by
  cases f with
  | malformed => exact absurd rfl limit
  | longInteger | deep => rfl

/-- **Every response ends in one of these ways.** -/
theorem takes_ofReply (take : Answer → Except Error α) (code : Int) (headers : Headers)
    (b : Octets) (failure : Bool) : Takes take (.response code headers b failure)
      (Answer.ofReply false (.response code headers b failure) >>= take) := by
  cases failure with
  | true => exact .failure
  | false =>
    rw [ofReply_document]
    have reads := readsAs_content b
    generalize Answer.content b = r at reads
    cases reads with
    | undecodable h => exact .unreadable (not_readable_of_decode? h) rfl
    | empty =>
      rw [ofString_empty]
      exact .empty
    | document some read => exact .document read
    | garbage some read => exact .garbage some read
    | @beyond s f some read limit =>
      exact .unreadable (not_readable_of_beyond read limit) (isOwn_error_of_ne limit)

/-! ## Whose error it is -/

theorem readable_iff_content :
    b.Readable ↔ ∀ e, Answer.content b = .error e → e.isOwn = true := by
  have reads := readsAs_content b
  generalize Answer.content b = r at reads
  cases reads with
  | undecodable h =>
    refine iff_of_false (not_readable_of_decode? h) fun own => ?_
    cases own _ rfl
  | empty => exact iff_of_true (readable_ofString_iff.mpr ⟨nofun, nofun⟩) nofun
  | document some read =>
    refine iff_of_true (readable_ofString_iff.mpr ?_) nofun
    rw [read]
    exact ⟨nofun, nofun⟩
  | garbage some read =>
    refine iff_of_true (readable_ofString_iff.mpr ?_) fun e he => by cases he; rfl
    rw [read]
    exact ⟨nofun, nofun⟩
  | @beyond s f some read limit =>
    refine iff_of_false (not_readable_of_beyond read limit) fun own => ?_
    cases (isOwn_error_of_ne limit).symm.trans (own _ rfl)

/-- **A reply can be read if the error is the client's own where it has no answer.** -/
theorem readable_iff {r : Reply} :
    r.Readable ↔ ∀ e, Answer.ofReply false r = .error e → e.isOwn = true := by
  cases r with
  | silence reason => exact iff_of_true trivial nofun
  | response code headers b failure =>
    cases failure with
    | true => exact iff_of_true trivial nofun
    | false =>
      rw [ofReply_document, Reply.Readable, readable_iff_content]
      cases Answer.content b with
      | error x => exact ⟨fun h e he => h e (by cases he; rfl), fun h e he => h e (by cases he; rfl)⟩
      | ok v => exact iff_of_true nofun nofun

/-- A reply is obscure if it cannot be read, or if its document is a text that goes beyond the depth
of the reader in its turn. -/
theorem isObscure_eq_false_iff {r : Reply} : r.isObscure = false ↔
    r.Readable ∧ ∀ a, Answer.ofReply false r = .ok a → Problem.isDeep a.body = false := by
  cases r with
  | silence reason =>
    exact ⟨fun h => ⟨trivial, fun a ha => by cases ha; exact h⟩, fun h => h.2 _ rfl⟩
  | response code headers b failure =>
    cases failure with
    | true => exact ⟨fun h => ⟨trivial, fun a ha => by cases ha; exact h⟩, fun h => h.2 _ rfl⟩
    | false =>
      rw [readable_iff, ofReply_document]
      cases hc : Answer.content b with
      | error x =>
        have own := @isOwn_of_content_error x code headers b hc
        constructor
        · intro h
          refine ⟨fun e he => ?_, nofun⟩
          cases he
          rw [own, h]
          rfl
        · intro h
          rw [h.1 x rfl] at own
          simpa using own.symm
      | ok v =>
        rw [isObscure_of_content_ok hc]
        exact ⟨fun h => ⟨nofun, fun a ha => by cases ha; exact h⟩, fun h => h.2 _ rfl⟩

/-! ## Documents and directories -/

section Asking

variable {s : State} {url : String} {g : Target}

theorem code_of_ofReply {raw : Bool} {a : Answer}
    (h : Answer.ofReply raw (.response code headers b failure) = .ok a) : a.code = code := by
  cases failure with
  | true => cases h; rfl
  | false =>
    cases raw with
    | true => cases h; rfl
    | false =>
      obtain ⟨v, -, ha⟩ := Action.except_bind_eq_ok_iff.mp h
      cases ha
      rfl

theorem requestResource_eq (target : Target.read? url = some g) :
    requestResource url s =
      (Answer.ofReply false (s.made ⟨g.text, none, none⟩).reply >>=
          accepted ("Error fetching " ++ url),
        (exchange ⟨g.text, none, none⟩ s).2) := by
  obtain ⟨hn, -⟩ | ⟨g', hg', h⟩ := fetch_cases s (.text url)
  · cases hn.symm.trans target
  · obtain rfl : g = g' := Option.some.inj (target.symm.trans hg')
    unfold requestResource
    rw [Action.bind_ofExcept, h]

theorem requestResource_of_success (target : Target.read? url = some g)
    (reply : (s.made ⟨g.text, none, none⟩).reply = .response code headers b failure)
    (success : code < 400) : (requestResource url s).1 =
      Answer.ofReply false (.response code headers b failure) >>= fun a => .ok (a.body, a.headers) := by
  rw [requestResource_eq target, reply]
  cases ha : Answer.ofReply false (.response code headers b failure) with
  | error e => rfl
  | ok a =>
    have fine : a.isRefusal = false := by
      rw [Answer.isRefusal, code_of_ofReply ha]
      exact decide_eq_false (not_le.mpr success)
    change accepted _ a = _
    rw [accepted, fine]
    rfl

/-- Where renewal information is asked for, a failure to fetch it is reported as one to load it if
the error is the client's own. -/
theorem fetchRenewalInfo_of_error (c : Client) (h : (requestResource url s).1 = .error e) :
    (CertificateResource.fetchRenewalInfo c.authority url s).1 =
      .error (e.asLoadFailure "RenewalInfo" url) := by
  have failed : (RenewalInfo.fetch c.authority url s).1 = .error e := by
    have asked : (c.authority.requestResource url s).1 = .error e := h
    rw [RenewalInfo.fetch_eq, asked]
    rfl
  unfold CertificateResource.fetchRenewalInfo
  refine Action.fst_bind_of_error ?_
  rw [Action.mapError_eq, failed]
  rfl

/-- Where the address of renewal information is asked for, a failure to fetch the directory is
reported as one to load the certificate if the error is the client's own. -/
theorem renewalLocation?_of_error (c : Client) (h : (c.directory s).1 = .error e)
    (r : CertificateResource) : (CertificateResource.renewalLocation? c.authority (r, s)).1 =
      .error (e.asLoadFailure "Certificate" r.location) := by
  have failed : c.authority.resourceUrl? CertificateResource.renewalResource s =
      (.error e, (c.directory s).2) := Action.bind_of_error (Prod.ext h rfl)
  unfold CertificateResource.renewalLocation?
  refine Action.fst_bind_of_error ?_
  rw [CertificateResource.loading_eq, Action.onSecond_of_eq failed]
  rfl

end Asking

/-- **Whatever a response brings that was not refused, the client ends with a result or an error,
and the error is its own exactly if the content can be read.**

A document is handed out as it is read, with the headers; a text that is not JSON is an error of the
protocol. The same holds of the directory, where a document that is no directory is an error too; it
is another one only where the document is a text that goes beyond the depth of the reader. Who asks
for renewal information gets these errors as failures to load it, if they are the client's own, and
as they are if not. -/
theorem own_iff_readable (c : Client) {s : State} {url : String} {g : Target} {code : Int}
    {headers : Headers} {b : Octets} {failure : Bool} (target : Target.read? url = some g)
    (reply : (s.made ⟨g.text, none, none⟩).reply = .response code headers b failure)
    (success : code < 400) :
    (Takes (fun a => .ok (a.body, a.headers)) (.response code headers b failure)
        (requestResource url s).1 ∧
      ∀ e, (requestResource url s).1 = .error e →
        (e.isOwn = true ↔ (Reply.response code headers b failure).Readable) ∧
        (CertificateResource.fetchRenewalInfo c.authority url s).1 =
          .error (e.asLoadFailure "RenewalInfo" url)) ∧
    (s.directory = none → c.directoryUrl = .ok (.text url) →
      Takes Answer.directory (.response code headers b failure) (c.directory s).1 ∧
      ∀ e, (c.directory s).1 = .error e →
        (e.isOwn = true ↔ (Reply.response code headers b failure).Readable ∧
          ∀ a, Answer.ofReply false (.response code headers b failure) = .ok a →
            Problem.isDeep a.body = false) ∧
        ∀ r : CertificateResource, (CertificateResource.renewalLocation? c.authority (r, s)).1 =
          .error (e.asLoadFailure "Certificate" r.location)) ∧
    ∀ ms, s.directory = some ms → (c.directory s).1 = .ok ms := by
  refine ⟨?_, ?_, fun ms known => by rw [directory_eq, known]⟩
  · have handed := requestResource_of_success target reply success
    refine ⟨handed ▸ takes_ofReply _ code headers b failure, fun e he => ⟨?_, ?_⟩⟩
    · rw [readable_iff]
      rw [handed] at he
      cases hr : Answer.ofReply false (.response code headers b failure) with
      | error x =>
        rw [hr] at he
        cases he
        exact ⟨fun own y hy => by cases hy; exact own, fun h => h e rfl⟩
      | ok a =>
        rw [hr] at he
        cases he
    · exact fetchRenewalInfo_of_error c he
  · intro unknown hu
    have asked := (directory_of_unknown unknown hu target).1
    rw [reply] at asked
    refine ⟨asked ▸ takes_ofReply _ code headers b failure, fun e he => ⟨?_, ?_⟩⟩
    · rw [isOwn_directoryOf (asked ▸ he), ← isObscure_eq_false_iff, Bool.not_eq_true']
    · exact renewalLocation?_of_error c he

/-- A text that is not JSON is an error of the client's own. -/
theorem own_iff_readable_brace :
    let reply := Reply.response 200 (.table []) (Octets.ofString "\x7b") false
    let s := State.start .null 0 [("https://ca/a", [reply])]
    Target.read? "https://ca/a" = some ⟨"https://ca/a".toList, []⟩ ∧
      (s.made ⟨Target.text ⟨"https://ca/a".toList, []⟩, none, none⟩).reply = reply ∧
      ∃ e, (requestResource "https://ca/a" s).1 = .error e ∧ e.isOwn = true := by
  intro reply s
  have target : Target.read? "https://ca/a" = some ⟨"https://ca/a".toList, []⟩ := by
    decide +kernel
  have replied : (s.made ⟨Target.text ⟨"https://ca/a".toList, []⟩, none, none⟩).reply = reply := rfl
  have failed : (requestResource "https://ca/a" s).1.toOption.isNone = true := by decide +kernel
  have malformed : Json.read "\x7b" = .error .malformed := by rfl
  refine ⟨target, replied, ?_⟩
  obtain ⟨-, own⟩ := (own_iff_readable sample target replied (by decide)).1
  cases h : (requestResource "https://ca/a" s).1 with
  | ok p =>
    rw [h] at failed
    cases failed
  | error e =>
    refine ⟨e, rfl, (own e h).1.mpr (readable_ofString_iff.mpr ?_)⟩
    rw [malformed]
    exact ⟨nofun, nofun⟩

/-- A reply whose content is no text. -/
def strangeReply : Reply :=
  .response 200 (.table []) [0xff] false

/-- It is answered with success, but the error is not one of the client's own, and it is not
reported as a failure to load what was asked for. -/
theorem directory_of_strangeReply :
    let s := State.start .null 0 [("https://ca/directory", [strangeReply])]
    (sample.directory s).1 = .error (.plain .undecodable "not a text") ∧
      ErrorKind.isOwn .undecodable = false ∧
      ∀ r : CertificateResource, (CertificateResource.renewalLocation? sample.authority (r, s)).1 =
        .error (.plain .undecodable "not a text") := by
  intro s
  have asked := @directory_of_unknown sample s (.text "https://ca/directory")
    ⟨"https://ca/directory".toList, []⟩ rfl rfl (by decide +kernel)
  have failed : (sample.directory s).1 = .error (.plain .undecodable "not a text") := asked.1
  exact ⟨failed, rfl, fun r => renewalLocation?_of_error sample failed r⟩

end Client

end AcmeClient
