import AcmeClient.Proofs.Action
import AcmeClient.CertificateResource

/-!
# Errors that are no failures to load

Nothing that is read or encoded fails with a failure to load a resource: such failures are what
other errors are wrapped in.

* `Error.isLoad`, `Unwrapped`: failures to load a resource, and outcomes that are none;
* **`Link.unwrapped_targets`**, **`Chain.unwrapped_parseBody`**,
  **`RenewalInfo.Record.unwrapped_read`**: links, chains and records are read without;
* **`CertificateResource.unwrapped_certIdOf`**, **`CertificateResource.unwrapped_pemText`**,
  **`Revocation.unwrapped_payload`**: identifiers, texts and requests are made without.
-/

namespace AcmeClient

/-- The error is a failure to load a resource. -/
def Error.isLoad : Error → Bool
  | load .. => true
  | _ => false

variable {α β : Type}

/-- An outcome that is no failure to load a resource. -/
def Unwrapped (r : Except Error α) : Prop :=
  ∀ e, r = .error e → e.isLoad = false

section Unwrapped

variable {r : Except Error α}

theorem unwrapped_ok (a : α) : Unwrapped (.ok a) :=
  nofun

theorem unwrapped_error {e : Error} (h : e.isLoad = false) :
    Unwrapped (.error e : Except Error α) :=
  fun _ he => Except.error.inj he ▸ h

theorem unwrapped_plain (k : ErrorKind) (m : String) :
    Unwrapped (.error (.plain k m) : Except Error α) :=
  unwrapped_error rfl

theorem Unwrapped.bind {f : α → Except Error β} (h : Unwrapped r) (hf : ∀ a, Unwrapped (f a)) :
    Unwrapped (r >>= f) := by
  cases r with
  | ok a => exact hf a
  | error x => exact unwrapped_error (h x rfl)

theorem Unwrapped.map (h : Unwrapped r) (f : α → β) : Unwrapped (r.map f) := by
  cases r with
  | ok a => exact unwrapped_ok (f a)
  | error x => exact unwrapped_error (h x rfl)

theorem Unwrapped.wrapWhen {p : Error → Bool} {k : ErrorKind} {m : String} (h : Unwrapped r) :
    Unwrapped (AcmeClient.wrapWhen p k m r) := by
  cases r with
  | ok a => exact unwrapped_ok a
  | error x =>
    unfold AcmeClient.wrapWhen
    by_cases hp : p x
    · simp only [hp]
      exact unwrapped_error rfl
    · simp only [hp]
      exact unwrapped_error (h x rfl)

theorem unwrapped_mapM {f : α → Except Error β} (hf : ∀ a, Unwrapped (f a)) (l : List α) :
    Unwrapped (l.mapM f) := by
  induction l with
  | nil => exact unwrapped_ok []
  | cons a l ih =>
    rw [List.mapM_cons]
    exact (hf a).bind fun _ => ih.bind fun _ => unwrapped_ok _

end Unwrapped

/-! ## Reading -/

theorem Link.unwrapped_resolve (base target : List Char) : Unwrapped (resolve base target) := by
  unfold resolve Url.join Url.malformed
  repeat' split
  all_goals first | exact unwrapped_ok _ | exact unwrapped_plain _ _

theorem Link.unwrapped_targets (h : Headers) (relation base : String) :
    Unwrapped (targets h relation base) := by
  have each : ∀ vs, Unwrapped (targetsIn relation.toList base.toList vs) := by
    intro vs
    induction vs with
    | nil => exact unwrapped_ok []
    | cons v vs ih =>
      have text : Unwrapped (valueText v) := by
        cases v <;> first | exact unwrapped_ok _ | exact unwrapped_plain _ _
      refine text.bind fun s => ?_
      exact (unwrapped_mapM (unwrapped_resolve base.toList) _).bind fun _ => ih.bind fun _ =>
        unwrapped_ok _
  exact (each _).bind fun _ => unwrapped_ok _

theorem Certificate.unwrapped_load (b : Octets) : Unwrapped (load b) := by
  unfold load
  split
  · exact unwrapped_ok _
  · exact unwrapped_plain _ _
  · exact unwrapped_plain _ _

theorem Certificate.unwrapped_ofPem (s : List Char) : Unwrapped (ofPem s) := by
  refine Unwrapped.wrapWhen ?_
  unfold loadPem
  split
  · exact unwrapped_load _
  · exact unwrapped_plain _ _

theorem Chain.unwrapped_parse (b : Octets) : Unwrapped (parse b) := by
  unfold parse
  split
  · dsimp only
    split
    · exact unwrapped_plain _ _
    · exact unwrapped_mapM Certificate.unwrapped_ofPem _
  · split
    · exact unwrapped_plain _ _
    · have der : Unwrapped (Certificate.ofDer b) := (Certificate.unwrapped_load b).wrapWhen
      exact der.map _

theorem Chain.unwrapped_parseBody (v : Value) : Unwrapped (parseBody v) := by
  cases v <;> first | exact unwrapped_parse _ | exact unwrapped_plain _ _

theorem Timestamp.unwrapped_parse (v : Value) : Unwrapped (parse v) := by
  cases v with
  | text s =>
    simp only [parse, parseText, toUtc]
    repeat' split
    all_goals first | exact unwrapped_ok _ | exact unwrapped_plain _ _
  | _ => exact unwrapped_plain _ _

theorem RetryAfter.delayed_eq (now : DateTime) (n : Nat) :
    delayed now n = (now.addMicroseconds? (n * 1000000)).elim
      (.error (.plain .outOfRange "delay too long")) .ok := by
  -- unfolded as a function: applied to `n`, the comparison would compute `n * 1000000`
  have same : delayed = fun now n => (now.addMicroseconds? (n * 1000000)).elim
      (.error (.plain .outOfRange "delay too long")) .ok := by
    delta delayed
    funext now n
    generalize now.addMicroseconds? _ = o
    cases o <;> rfl
  exact congrFun (congrFun same now) n

theorem RetryAfter.unwrapped_delayText (now : DateTime) (s : List Char) :
    Unwrapped (delayText now s) := by
  have soon (n : Nat) : Unwrapped (delayed now n) := by
    rw [delayed_eq]
    cases now.addMicroseconds? (n * 1000000) with
    | some t => exact unwrapped_ok t
    | none => exact unwrapped_plain _ _
  unfold delayText
  by_cases long : s.length > maxDigits
  · rw [if_pos long]
    exact unwrapped_plain _ _
  · rw [if_neg long]
    cases Digit.number? s with
    | none => exact unwrapped_plain _ _
    | some n => exact (soon n).map some

theorem RetryAfter.unwrapped_parse (v : Value) (now : DateTime) : Unwrapped (parse v now) := by
  have date (s : List Char) : Unwrapped (dateText s) := by
    unfold dateText
    split <;> first | exact unwrapped_ok _ | exact unwrapped_plain _ _
  cases v with
  | text s =>
    simp only [parse, parseText]
    split
    · exact unwrapped_delayText now _
    · exact date _
  | bytes b =>
    simp only [parse, parseOctets]
    split
    · exact unwrapped_delayText now _
    · exact unwrapped_ok _
  | null => exact unwrapped_ok _
  | _ => exact unwrapped_plain _ _

namespace RenewalInfo

theorem Record.unwrapped_memberOf (name : String) (v : Value) : Unwrapped (memberOf name v) := by
  cases v with
  | object ms =>
    simp only [memberOf]
    split
    · exact unwrapped_ok _
    · exact unwrapped_plain _ _
  | _ => exact unwrapped_plain _ _

theorem Record.unwrapped_read (location : String) (document : Value) (headers : Headers)
    (now : DateTime) : Unwrapped (read location document headers now) := by
  have window : Unwrapped (Record.window document) := by
    refine (unwrapped_memberOf _ _).bind fun w => (unwrapped_memberOf _ _).bind fun v => ?_
    refine (Timestamp.unwrapped_parse v).bind fun a => (unwrapped_memberOf _ _).bind fun v => ?_
    exact (Timestamp.unwrapped_parse v).bind fun b => unwrapped_ok _
  refine window.wrapWhen.bind fun (a, b) => ?_
  by_cases backward : b.instant < a.instant
  · simp only [backward, if_true]
    exact unwrapped_plain _ _
  · simp only [backward, if_false]
    exact (RetryAfter.unwrapped_parse _ now).bind fun _ => unwrapped_ok _

end RenewalInfo

/-! ## Identifiers and encodings -/

theorem Certificate.unwrapped_encode (c : Certificate) : Unwrapped c.encode := by
  unfold encode
  split
  · exact unwrapped_ok _
  · exact (unwrapped_plain _ _).wrapWhen

namespace Issuer

theorem unwrapped_demand (o : Option α) : Unwrapped (demand o) := by
  cases o with
  | some a => exact unwrapped_ok a
  | none => exact unwrapped_plain _ _

theorem unwrapped_keyOf (info : Lenient.Element) : Unwrapped (keyOf info) := by
  refine (unwrapped_demand _).bind fun parts => ?_
  split
  · refine (unwrapped_demand _).bind fun fields => (unwrapped_demand _).bind fun id => ?_
    refine (unwrapped_demand _).bind fun form => ?_
    split
    · exact unwrapped_plain _ _
    · split
      · exact unwrapped_plain _ _
      · exact unwrapped_demand _
  · exact unwrapped_plain _ _

theorem unwrapped_extract (b : Octets) : Unwrapped (extract b) := by
  refine (unwrapped_demand _).bind fun p => (unwrapped_demand _).bind fun parts => ?_
  split
  · refine (unwrapped_demand _).bind fun fields => ?_
    split
    · split
      · exact unwrapped_plain _ _
      · exact (unwrapped_keyOf _).bind fun key => unwrapped_ok _
    · exact unwrapped_plain _ _
  · exact unwrapped_plain _ _

end Issuer

theorem CertId.unwrapped_text (name : String) (issuer : Certificate) (serial : Int) :
    Unwrapped (text (.text name) (.certificate issuer) (.int serial)) := by
  have algorithm : Unwrapped (HashAlgorithm.ofValue (.text name)) := by
    simp only [HashAlgorithm.ofValue]
    split
    · exact unwrapped_ok _
    · exact unwrapped_plain _ _
  have given : Unwrapped (Issuer.ofGiven (.certificate issuer)) :=
    Unwrapped.bind issuer.unwrapped_encode fun b => (Issuer.unwrapped_extract b).wrapWhen
  have encoded : Unwrapped (encode (.text name) (.certificate issuer) (.int serial)) :=
    algorithm.bind fun _ => given.bind fun _ => (unwrapped_ok serial).bind fun _ => unwrapped_ok _
  exact encoded.bind fun _ => unwrapped_ok _

theorem CertificateResource.unwrapped_certIdOf (cs : List Certificate) : Unwrapped (certIdOf cs) := by
  rcases cs with _ | ⟨c, _ | ⟨issuer, rest⟩⟩
  · exact unwrapped_plain _ _
  · exact unwrapped_plain _ _
  · exact CertId.unwrapped_text _ issuer c.serial

theorem CertificateResource.unwrapped_pemText (cs : List Certificate) : Unwrapped (pemText cs) := by
  induction cs with
  | nil => exact unwrapped_ok ""
  | cons c cs ih =>
    have first : Unwrapped c.pem := c.unwrapped_encode.bind fun _ => unwrapped_ok _
    exact first.bind fun _ => ih.bind fun _ => unwrapped_ok _

theorem Revocation.unwrapped_payload (c : Certificate) (reason : Value) :
    Unwrapped (payload (.certificate c) reason) := by
  refine Unwrapped.bind c.unwrapped_encode fun der => ?_
  have member : Unwrapped (reasonMember reason) := by
    unfold reasonMember
    split
    · exact unwrapped_ok _
    · split
      · exact unwrapped_ok _
      · exact unwrapped_plain _ _
  exact member.bind fun _ => unwrapped_ok _

end AcmeClient
