import AcmeClient.Proofs.CertificateResource.Loading
import AcmeClient.Proofs.Chain.RoundTrip

/-!
# How reading a chain ends

A response body is read as a chain with a first certificate, or it is an encoding error, unless a
certificate in it is of an unknown version.

* `X509.OtherVersion`, `Certificate.OtherVersion`, `Chain.OtherVersion`: octets, PEM texts and
  bodies in which the version of a certificate is all that is wrong with what is read first;
* `EncodingUnless`: an outcome that is a result or an encoding error, unless something holds;
* `Certificate.encodingUnless_ofDer`, `Certificate.encodingUnless_ofPem`, `EncodingUnless.mapM`:
  reading one certificate, and several;
* **`Chain.encodingUnless_parse`**: reading a chain;
* **`Chain.nonempty_or_encoding`**: the same for bodies, and for downloads that bring them.
-/

namespace AcmeClient

/-- Octets that are a certificate in all but its version. -/
def X509.OtherVersion (b : Octets) : Prop :=
  ∃ d, read? b = some d ∧ d.isKnown = false

namespace Certificate

/-- The first certificate of a PEM text is of another version. -/
def OtherVersion (s : List Char) : Prop :=
  ∃ p, Pem.find? labels s = some p ∧ X509.OtherVersion p.content

/-- The error for a certificate of another version. -/
def otherVersion : Error :=
  .plain .certificateVersion "unknown version"

end Certificate

variable {α β : Type}

/-- The outcome is a result or an encoding error, unless `p` holds: then it is the error for a
certificate of another version. -/
structure EncodingUnless (p : Prop) (r : Except Error α) : Prop where
  encoding : ¬ p → ∀ e, r = .error e → e.kind? = some .encoding
  version : p → r = .error Certificate.otherVersion

section EncodingUnless

variable {p q : Prop} {r : Except Error α} {f : α → Except Error β} {P : α → Prop}

theorem EncodingUnless.congr (h : EncodingUnless p r) (same : p ↔ q) : EncodingUnless q r :=
  ⟨fun hq => h.encoding fun hp => hq (same.mp hp), fun hq => h.version (same.mpr hq)⟩

theorem EncodingUnless.map (h : EncodingUnless p r) (g : α → β) : EncodingUnless p (r.map g) where
  encoding hp e he := by
    cases r with
    | ok a => cases he
    | error x => exact h.encoding hp e (congrArg Except.error (Except.error.inj he))
  version hp := by
    rw [h.version hp]
    rfl

theorem encodingUnless_ok (a : α) (hp : ¬ p) : EncodingUnless p (.ok a) :=
  ⟨fun _ => nofun, fun h => absurd h hp⟩

theorem encodingUnless_encoding (m : String) (hp : ¬ p) :
    EncodingUnless p (.error (.plain .encoding m) : Except Error α) :=
  ⟨fun _ _ he => by cases he; rfl, fun h => absurd h hp⟩

/-- The first item of a list that `f` fails for has the property `P`. -/
def FirstFailing (f : α → Except Error β) (P : α → Prop) (l : List α) : Prop :=
  ∃ before a after, l = before ++ a :: after ∧ (∀ x ∈ before, ∃ y, f x = .ok y) ∧ P a

theorem not_firstFailing_nil : ¬ FirstFailing f P [] := by
  rintro ⟨before, a, after, h, -⟩
  cases before <;> cases h

theorem firstFailing_cons_iff {a : α} {l : List α} :
    FirstFailing f P (a :: l) ↔ P a ∨ (∃ y, f a = .ok y) ∧ FirstFailing f P l := by
  constructor
  · rintro ⟨_ | ⟨d, before⟩, x, after, h, fine, hx⟩
    · cases h
      exact .inl hx
    · cases h
      exact .inr ⟨fine _ List.mem_cons_self, before, x, after, rfl,
        fun y hy => fine y (List.mem_cons_of_mem _ hy), hx⟩
  · rintro (ha | ⟨here, before, x, after, rfl, fine, hx⟩)
    · exact ⟨[], a, l, rfl, nofun, ha⟩
    · exact ⟨a :: before, x, after, rfl, List.forall_mem_cons.mpr ⟨here, fine⟩, hx⟩

/-- **One after the other: the first failure decides.** -/
theorem EncodingUnless.mapM (h : ∀ a, EncodingUnless (P a) (f a)) (l : List α) :
    EncodingUnless (FirstFailing f P l) (l.mapM f) := by
  induction l with
  | nil => exact encodingUnless_ok [] not_firstFailing_nil
  | cons a l ih =>
    refine EncodingUnless.congr ?_ firstFailing_cons_iff.symm
    rw [List.mapM_cons]
    cases ha : f a with
    | error e =>
      refine ⟨fun hn x hx => ?_, ?_⟩
      · cases hx
        exact (h a).encoding (fun hp => hn (.inl hp)) e ha
      · rintro (hp | ⟨⟨y, hy⟩, -⟩)
        · exact congrArg Except.error (Except.error.inj (ha.symm.trans ((h a).version hp)))
        · cases hy
    | ok b =>
      have fine : ¬ P a := fun hp => by
        rw [(h a).version hp] at ha
        cases ha
      have rest := ih.map (b :: ·)
      have same : FirstFailing f P l ↔ P a ∨ (∃ y, Except.ok b = Except.ok (ε := Error) y) ∧
          FirstFailing f P l :=
        ⟨fun hl => .inr ⟨⟨b, rfl⟩, hl⟩, fun hl => (hl.resolve_left fine).2⟩
      have mapped : (do let bs ← l.mapM f; Pure.pure (b :: bs)) = (l.mapM f).map (b :: ·) := by
        cases l.mapM f <;> rfl
      exact mapped ▸ rest.congr same

end EncodingUnless

/-! ## One certificate -/

namespace Certificate

theorem encodingUnless_load (m : String) (b : Octets) : EncodingUnless (X509.OtherVersion b)
    (wrapWhen Error.isValue .encoding m (load b)) := by
  unfold load
  cases hb : X509.read? b with
  | none =>
    have malformed : X509.read b = .error .malformed := by rw [X509.read, hb]
    have fine : ¬ X509.OtherVersion b := by
      rintro ⟨d, hd, -⟩
      rw [hb] at hd
      cases hd
    rw [malformed]
    exact ⟨fun _ e he => by cases he; rfl, fun h => absurd h fine⟩
  | some d =>
    have other : X509.OtherVersion b ↔ d.isKnown = false := by
      constructor
      · rintro ⟨d', hd, hk⟩
        rwa [Option.some.inj (hb.symm.trans hd)]
      · exact fun hk => ⟨d, hb, hk⟩
    have read : X509.read b = if d.isKnown then .ok d else .error .version := by
      rw [X509.read, hb]
    rw [read]
    cases hk : d.isKnown with
    | true =>
      rw [hk] at other
      exact encodingUnless_ok _ fun h => Bool.noConfusion (other.mp h)
    | false => exact ⟨fun h => absurd (other.mpr hk) h, fun _ => rfl⟩

theorem encodingUnless_ofDer (b : Octets) : EncodingUnless (X509.OtherVersion b) (ofDer b) :=
  encodingUnless_load _ b

theorem encodingUnless_ofPem (s : List Char) : EncodingUnless (OtherVersion s) (ofPem s) := by
  unfold ofPem loadPem
  cases hs : Pem.find? labels s with
  | none =>
    have fine : ¬ OtherVersion s := by
      rintro ⟨p, hp, -⟩
      rw [hs] at hp
      cases hp
    exact ⟨fun _ e he => by cases he; rfl, fun h => absurd h fine⟩
  | some p =>
    refine (encodingUnless_load _ p.content).congr ⟨fun other => ⟨p, hs, other⟩, ?_⟩
    rintro ⟨p', hp, other⟩
    rwa [Option.some.inj (hs.symm.trans hp)]

end Certificate

/-! ## Chains -/

namespace Chain

/-- Of what a body is read as, the first certificate that cannot be read is of another version:
among the blocks if there is the mark of PEM texts, and else the body itself. -/
def OtherVersion (b : Octets) : Prop :=
  if Octets.hasInfix marker b then
    FirstFailing Certificate.ofPem Certificate.OtherVersion (blocks (asciiChars b))
  else X509.OtherVersion b

/-- **Octets are read as a chain or are an encoding error, unless a certificate is of another
version.** -/
theorem encodingUnless_parse (b : Octets) : EncodingUnless (OtherVersion b) (parse b) := by
  unfold parse OtherVersion
  split
  · dsimp only
    split
    · rename_i empty
      rw [List.isEmpty_iff.mp empty]
      exact encodingUnless_encoding _ not_firstFailing_nil
    · exact .mapM Certificate.encodingUnless_ofPem _
  · split
    · rename_i empty
      rw [List.isEmpty_iff.mp empty]
      refine encodingUnless_encoding _ ?_
      rintro ⟨d, ⟨⟩, -⟩
    · exact (Certificate.encodingUnless_ofDer b).map _

/-- The octets of a response body that is a text or consists of octets. -/
def bodyOctets? : Value → Option Octets
  | .text s => some (Octets.ofString s)
  | .bytes b => some b
  | _ => none

variable {v : Value} {b : Octets}

theorem parseBody_eq (h : bodyOctets? v = some b) : parseBody v = parse b := by
  cases v <;> cases h <;> rfl

end Chain

theorem CertificateResource.download_of_response {σ : Type} {A : Authority σ}
    {c : CertificateResource} {s t : σ} {v : Value} {headers : Headers} {alternates : List String}
    (h : c.download? = none) (brought : A.requestCertificate c.location
      (A.note (announcement c.location) s) = (.ok (v, headers), t))
    (links : Link.targets headers "alternate" c.location = .ok alternates) :
    (download A (c, s)).1 = (Chain.parseBody v).map fun chain => ⟨chain, alternates⟩ := by
  have fetched : (fetch A c.location s).1 =
      (Chain.parseBody v).map fun chain => ⟨chain, alternates⟩ := by
    rw [fetch_eq, brought]
    simp only [Except.bind, Download.ofResponse, links]
    cases Chain.parseBody v <;> rfl
  rw [download_eq A s h, ← fetched]
  rcases fetch A c.location s with ⟨e | d, t⟩ <;> rfl

namespace Chain

/-- **Reading a chain ends in one of two ways, unless a certificate is of another version.**

A body that is a text or consists of octets is read as a chain with a first certificate, or it is an
encoding error. The only exception are certificates of an unknown version: where the first one that
cannot be read is such a certificate, the error is another one. A download that brings the body ends
in the same way. -/
theorem nonempty_or_encoding {v : Value} {b : Octets} (body : bodyOctets? v = some b) :
    (∀ cs, parseBody v = .ok cs → cs ≠ []) ∧ EncodingUnless (OtherVersion b) (parseBody v) ∧
    ∀ {σ : Type} (A : Authority σ) (c : CertificateResource) (s t : σ) (headers : Headers)
      (alternates : List String), c.download? = none →
      A.requestCertificate c.location (A.note (CertificateResource.announcement c.location) s) =
        (.ok (v, headers), t) →
      Link.targets headers "alternate" c.location = .ok alternates →
      EncodingUnless (OtherVersion b) (CertificateResource.download A (c, s)).1 := by
  have read : EncodingUnless (OtherVersion b) (parseBody v) := by
    rw [parseBody_eq body]
    exact encodingUnless_parse b
  refine ⟨fun cs h => parseBody_ne_nil h, read, fun A c s t headers alternates h brought links => ?_⟩
  rw [CertificateResource.download_of_response h brought links]
  exact read.map _

/-- A certificate of few octets with the version number 3, which stands for a fourth version. -/
def fourth : Octets :=
  [0x30, 0x59, 0x30, 0x4d, 0xa0, 0x03, 0x02, 0x01, 0x03] ++ Certificate.smallest.drop 4

theorem otherVersion_fourth : X509.OtherVersion fourth := by
  have read : (X509.read? fourth).map X509.Document.isKnown = some false := by decide +kernel
  obtain ⟨d, hd, other⟩ := Option.map_eq_some_iff.mp read
  exact ⟨d, hd, other⟩

/-- It is no chain, and no encoding error. -/
theorem parse_fourth : parseBody (.bytes fourth) = .error Certificate.otherVersion ∧
    Certificate.otherVersion.kind? ≠ some .encoding ∧ Certificate.otherVersion.isOwn = false := by
  refine ⟨?_, by decide, rfl⟩
  have single : ¬ Octets.hasInfix marker fourth = true := by decide +kernel
  have other : OtherVersion fourth := by
    rw [OtherVersion, if_neg single]
    exact otherVersion_fourth
  exact (encodingUnless_parse fourth).version other

/-- It is the second one of a chain in which the first one can be read. -/
theorem nonempty_or_encoding_second :
    let ps := [(Certificate.smallest, ""), (fourth, "")]
    bodyOctets? (.text (amid "" ps)) = some (Octets.ofString (amid "" ps)) ∧
      parseBody (.text (amid "" ps)) = .error Certificate.otherVersion := by
  intro ps
  have body : bodyOctets? (.text (amid "" ps)) = some (Octets.ofString (amid "" ps)) := rfl
  refine ⟨body, (nonempty_or_encoding body).2.1.version ?_⟩
  have found : Pem.find? Certificate.labels (Pem.block "CERTIFICATE".toList fourth) =
      some ⟨"CERTIFICATE".toList, [], fourth⟩ :=
    Pem.find?_block fourth (by decide) (by decide) (by decide +kernel)
  have blocks : blocks (asciiChars (Octets.ofString (amid "" ps))) =
      ps.map fun p => Pem.block "CERTIFICATE".toList p.1 :=
    blocks_amid (by decide) (by decide)
  rw [OtherVersion, if_pos (hasInfix_amid "" (List.cons_ne_nil _ _)), blocks]
  refine ⟨[Pem.block "CERTIFICATE".toList Certificate.smallest], _, [], rfl, ?_,
    _, found, otherVersion_fourth⟩
  intro p hp
  rw [List.mem_singleton.mp hp]
  exact ⟨_, Certificate.ofPem_block Certificate.ofDer_smallest⟩

end Chain

end AcmeClient
