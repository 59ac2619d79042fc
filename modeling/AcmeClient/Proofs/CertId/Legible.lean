import AcmeClient.Proofs.CertId
import AcmeClient.Proofs.X509.Layout

/-!
# Issuers that have identifiers

An issuer has identifiers if the lenient reader knows the algorithm of its key, and if the key has
the form that goes with the algorithm. Nothing else in a certificate can prevent them.

* `Issuer.Fits`, `Issuer.Legible`: keys of a form, and keys that the lenient reader can make use of;
* `Issuer.bits?_isSome_iff`: the bits of a key are taken exactly if they have the form;
* `Issuer.keyOf_layout`, **`Issuer.extract_of_legible`**, `Issuer.extract_of_not_legible`: what the
  lenient reader finds in a certificate;
* **`CertId.encode_iff_legible`**: which certificates have identifiers as issuers, and which ones.
-/

namespace AcmeClient

namespace Issuer

variable {b bits : Octets} {d : X509.Document} {form : KeyForm} {unused : UInt8}

/-- The bits of a key have a form: if it asks for an element, they are whole octets that start with
one. -/
def Fits : KeyForm → UInt8 → Octets → Prop
  | .opaqueBits, _, _ => True
  | .element t, unused, bits =>
    unused = 0 ∧ ∃ e r, Lenient.readElement? bits = some (e, r) ∧ e.tag = t

/-- The key belongs to a known algorithm, given by the content of its object identifier, and has the
form that goes with this algorithm. -/
def Legible (algorithm : Octets) (unused : UInt8) (bits : Octets) : Prop :=
  ∃ form, keyForm? (Lenient.numbers 0 algorithm) = some form ∧ Fits form unused bits

/-- The bits of a key are taken exactly if they have the form. -/
theorem bits?_isSome_iff (valid : X509.isBits (unused :: bits) = true) :
    (bits? form unused bits).isSome ↔ Fits form unused bits := by
  cases form with
  | opaqueBits =>
    rw [bits?, Fits]
    simp only [iff_true]
    by_cases zero : unused = 0
    · rw [if_pos zero]
      rfl
    · have mark : (unused == 0) = false := beq_eq_false_iff_ne.mpr zero
      simp only [X509.isBits, mark, Bool.false_or, Bool.and_eq_true, decide_eq_true_eq] at valid
      have few : ¬ unused > 7 := UInt8.not_lt.mpr valid.1
      have some_bits : bits.isEmpty = false := by
        cases bits with
        | nil => cases valid.2
        | cons => rfl
      rw [if_neg zero, if_neg (by simp [few, some_bits])]
      rfl
  | element t =>
    rw [bits?, Fits]
    by_cases whole : unused = 0
    · rw [if_neg (not_not.mpr whole)]
      rcases first : Lenient.readElement? bits with _ | ⟨e, r⟩
      · simp
      · by_cases tag : e.tag = t
        · simp [whole, tag]
        · simp [tag]
    · rw [if_pos whole]
      simp [whole]

theorem demand_bind {α β : Type} (a : α) (f : α → Except Error β) :
    (demand (some a) >>= f) = f a :=
  rfl

theorem keyOf_layout (l : X509.Layout b d) : keyOf (Lenient.ofStrict l.info) =
    demand ((keyForm? (Lenient.numbers 0 d.keyAlgorithm.id)).bind fun form =>
      bits? form l.unused d.key) := by
  have parts := X509.within?_of_leads l.tag_info l.leads_info
  have fields := X509.within?_of_leads l.tag_keyAlgorithm l.leads_keyAlgorithm
  have tag : (Lenient.ofStrict l.key).tag = Der.Tag.bitString := l.tag_key
  have content : (Lenient.ofStrict l.key).content = l.unused :: d.key := l.content_key
  have named : (Lenient.ofStrict l.id).tag = Der.Tag.objectId := l.tag_id
  have id : (Lenient.ofStrict l.id).content = d.keyAlgorithm.id := l.content_id
  rw [keyOf, parts, demand_bind]
  simp only [List.map_cons, List.map_nil]
  rw [fields, demand_bind]
  simp only [List.map_cons, List.head?_cons]
  rw [demand_bind, if_pos named, id]
  cases keyForm? (Lenient.numbers 0 d.keyAlgorithm.id) with
  | none => rfl
  | some form =>
    rw [demand_bind, if_neg (not_not.mpr tag), content]
    rfl

theorem extract_layout (l : X509.Layout b d) : extract b =
    (keyOf (Lenient.ofStrict l.info)).map fun key => ⟨d.subject, key⟩ := by
  have parts := X509.within?_of_leads l.tag_whole l.leads_whole
  have fields := X509.within?_of_leads l.tag_body l.leads_body
  have skipped := @skipVersion_eq l.version [l.algorithm, l.issuer, l.validity, l.subject, l.info]
    l.serial l.version_cases l.tag_serial (l.others.map Lenient.ofStrict)
  have name : (Lenient.ofStrict l.subject).tag = Der.Tag.sequence := l.tag_subject
  have octets : (Lenient.ofStrict l.subject).octets = d.subject := l.octets_subject
  rw [extract, Lenient.readElement?_of_strict l.read_whole, demand_bind]
  simp only [parts, demand_bind, List.map_cons, List.map_nil]
  rw [fields, demand_bind, List.map_append, skipped]
  simp only [List.map_cons, List.map_nil, List.cons_append, List.nil_append]
  rw [if_neg (not_not.mpr name), octets]
  cases keyOf (Lenient.ofStrict l.info) <;> rfl

theorem extract_of_legible (l : X509.Layout b d)
    (h : Legible d.keyAlgorithm.id l.unused d.key) : extract b = .ok ⟨d.subject, d.key⟩ := by
  obtain ⟨form, known, fits⟩ := h
  have valid : X509.isBits (l.unused :: d.key) = true := l.content_key ▸ l.isBits_key
  obtain ⟨k, taken⟩ := Option.isSome_iff_exists.mp ((bits?_isSome_iff valid).mpr fits)
  rw [extract_layout l, keyOf_layout l, known, Option.bind_some, taken, eq_of_bits? valid taken]
  rfl

theorem extract_of_not_legible (l : X509.Layout b d)
    (h : ¬ Legible d.keyAlgorithm.id l.unused d.key) : extract b = .error malformed := by
  have valid : X509.isBits (l.unused :: d.key) = true := l.content_key ▸ l.isBits_key
  rw [extract_layout l, keyOf_layout l]
  cases known : keyForm? (Lenient.numbers 0 d.keyAlgorithm.id) with
  | none => rfl
  | some form =>
    have unfit : ¬ (bits? form l.unused d.key).isSome := fun taken =>
      h ⟨form, known, (bits?_isSome_iff valid).mp taken⟩
    rw [Option.bind_some, Option.not_isSome_iff_eq_none.mp unfit]
    rfl

/-- The error for a certificate of which the lenient reader cannot make use. -/
def unparsable : Error :=
  .caused .encoding "Could not parse issuer certificate" malformed

end Issuer

namespace CertId

variable {der : Octets} {issuer : Certificate} {g : Certificate.Given}

theorem encode_ofDer (loaded : Certificate.ofDer der = .ok issuer)
    (given : g = .octets der ∨ g = .certificate issuer) (a : HashAlgorithm) (n : Int) :
    encode (.text a.name) g (.int n) = (Issuer.ofDer der).map fun i => (ofIssuer a i n).der := by
  rw [encode, HashAlgorithm.ofValue_name, ofGiven_eq loaded given]
  cases Issuer.ofDer der <;> rfl

/-- **A certificate has identifiers as an issuer exactly if the lenient reader can make use of its
key.** Then there is one for every hash function and every serial number, the same for the
certificate and for its octets. It holds the hashes of the name as the strict reader delimits it and
of the bits of the key. Without a usable key, the certificate is an encoding error. -/
theorem encode_iff_legible (loaded : Certificate.ofDer der = .ok issuer) :
    ∃ d, X509.read der = .ok d ∧ ∃ l : X509.Layout der d,
      ∀ (a : HashAlgorithm) (n : Int) (g : Certificate.Given),
        g = .octets der ∨ g = .certificate issuer →
        (Issuer.Legible d.keyAlgorithm.id l.unused d.key →
          encode (.text a.name) g (.int n) =
            .ok (CertId.mk a (a.digest d.subject) (a.digest d.key) n).der) ∧
        (¬ Issuer.Legible d.keyAlgorithm.id l.unused d.key →
          encode (.text a.name) g (.int n) = .error Issuer.unparsable) := by
  obtain ⟨d, hd, -⟩ := Certificate.ofDer_eq_ok_iff.mp loaded
  obtain ⟨l⟩ := X509.exists_layout (X509.read?_of_read hd)
  refine ⟨d, hd, l, fun a n g given => ⟨fun legible => ?_, fun illegible => ?_⟩⟩
  · rw [encode_ofDer loaded given, Issuer.ofDer, Issuer.extract_of_legible l legible]
    rfl
  · rw [encode_ofDer loaded given, Issuer.ofDer, Issuer.extract_of_not_legible l illegible]
    rfl

/-- The certificate of few octets has no version and a key on an Edwards curve. -/
theorem encode_iff_legible_smallest :
    let issuer : Certificate := ⟨7, .ok Certificate.smallest⟩
    Certificate.ofDer Certificate.smallest = .ok issuer ∧
      ∃ d, X509.read Certificate.smallest = .ok d ∧
        encode (.text "sha512") (.certificate issuer) (.int 0) =
          .ok (CertId.mk .sha512 (sha512 d.subject) (sha512 d.key) 0).der := by
  intro issuer
  have loaded : Certificate.ofDer Certificate.smallest = .ok issuer := Certificate.ofDer_smallest
  obtain ⟨d, hd, l, outcome⟩ := encode_iff_legible loaded
  have read := (X509.read?_of_read hd).symm.trans Certificate.read?_smallest
  refine ⟨loaded, d, hd, (outcome .sha512 0 _ (.inr rfl)).1 ⟨.opaqueBits, ?_, trivial⟩⟩
  rw [Option.some.inj read]
  decide

/-- A certificate of few octets with a key of an unknown algorithm, 1.2.3.4. -/
def foreign : Octets :=
  Certificate.smallest.take 69 ++ [0x2a, 0x03, 0x04] ++ Certificate.smallest.drop 72

theorem read?_foreign : X509.read? foreign =
    some ⟨0, 7, [0x30, 0x00], (foreign.drop 48).take 15, ⟨[0x2a, 0x03, 0x04], []⟩, [0x2a]⟩ := by
  decide +kernel

/-- It can be read, but it has no identifiers as an issuer. -/
theorem encode_foreign : Certificate.ofDer foreign = .ok ⟨7, .ok foreign⟩ ∧
    encode (.text "sha256") (.octets foreign) (.int 7) = .error Issuer.unparsable := by
  have loaded : Certificate.ofDer foreign = .ok ⟨7, .ok foreign⟩ :=
    Certificate.ofDer_of_read? read?_foreign rfl
  have unknown : Issuer.keyForm? (Lenient.numbers 0 [0x2a, 0x03, 0x04]) = none := by decide
  obtain ⟨l⟩ := X509.exists_layout read?_foreign
  have refused : Issuer.extract foreign = .error Issuer.malformed := by
    refine Issuer.extract_of_not_legible l ?_
    rintro ⟨form, known, -⟩
    cases unknown.symm.trans known
  refine ⟨loaded, ?_⟩
  have outcome := encode_ofDer loaded (.inl rfl) .sha256 7
  rw [Issuer.ofDer, refused] at outcome
  exact outcome

end CertId

end AcmeClient
