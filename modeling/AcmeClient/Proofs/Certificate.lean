import AcmeClient.Certificate
import AcmeClient.Proofs.Action
import AcmeClient.Proofs.Pem

/-!
# Reading certificates

* `Certificate.ofDer_eq_ok_iff`: what the certificate of octets is;
* `Certificate.encode_of_ofDer`: it is encoded by these octets;
* **`Certificate.ofPem_block`**: it is read from its PEM block;
* `Certificate.exists_ofDer_of_ofPem`: what is read from a PEM text can be read from octets;
* `Certificate.Loadable`: certificates that can be read;
* `Certificate.smallest`: a certificate of few octets.
-/

namespace AcmeClient

namespace Certificate

variable {b : Octets} {c : Certificate}

theorem load_eq_ok_iff :
    load b = .ok c ↔ ∃ d, X509.read b = .ok d ∧ c = ⟨d.serial, .ok b⟩ := by
  unfold load
  cases X509.read b with
  | ok d =>
    constructor
    · rintro ⟨⟩
      exact ⟨d, rfl, rfl⟩
    · rintro ⟨_, ⟨⟩, rfl⟩
      rfl
  | error e =>
    constructor
    · cases e <;> rintro ⟨⟩
    · rintro ⟨_, ⟨⟩, -⟩

theorem ofDer_eq_ok_iff :
    ofDer b = .ok c ↔ ∃ d, X509.read b = .ok d ∧ c = ⟨d.serial, .ok b⟩ := by
  rw [ofDer, wrapWhen_eq_ok_iff, load_eq_ok_iff]

theorem encode_of_ofDer (h : ofDer b = .ok c) : c.encode = .ok b := by
  obtain ⟨d, -, rfl⟩ := ofDer_eq_ok_iff.mp h
  rfl

theorem pem_of_ofDer (h : ofDer b = .ok c) :
    c.pem = .ok (String.ofList (Pem.write "CERTIFICATE".toList b)) := by
  rw [pem, encode_of_ofDer h]
  rfl

theorem ofDer_of_read? {d : X509.Document} (h : X509.read? b = some d) (known : d.isKnown = true) :
    ofDer b = .ok ⟨d.serial, .ok b⟩ := by
  refine ofDer_eq_ok_iff.mpr ⟨d, ?_, rfl⟩
  rw [X509.read, h]
  exact if_pos known

/-- **A certificate is read from its PEM block.** -/
theorem ofPem_block (h : ofDer b = .ok c) : ofPem (Pem.block "CERTIFICATE".toList b) = .ok c := by
  have found : Pem.find? labels (Pem.block "CERTIFICATE".toList b) =
      some ⟨"CERTIFICATE".toList, [], b⟩ :=
    Pem.find?_block b (by decide) (by decide) (by decide +kernel)
  rw [ofPem, wrapWhen_eq_ok_iff, loadPem, found]
  exact load_eq_ok_iff.mpr (ofDer_eq_ok_iff.mp h)

/-- What is read from a PEM text is encoded by octets that are shorter than the text. -/
theorem exists_ofDer_of_ofPem {s : List Char} (h : ofPem s = .ok c) :
    ∃ b, ofDer b = .ok c ∧ b.length < s.length := by
  rw [ofPem, wrapWhen_eq_ok_iff] at h
  unfold loadPem at h
  cases hs : Pem.find? labels s with
  | none =>
    rw [hs] at h
    cases h
  | some p =>
    rw [hs] at h
    exact ⟨p.content, ofDer_eq_ok_iff.mpr (load_eq_ok_iff.mp h), Pem.length_find? hs⟩

/-- A certificate that can be read, from its octets or from a PEM text. -/
def Loadable (c : Certificate) : Prop :=
  (∃ b, ofDer b = .ok c) ∨ ∃ s, ofPem s = .ok c

theorem loadable_iff : c.Loadable ↔ ∃ b, ofDer b = .ok c := by
  constructor
  · rintro (read | ⟨s, read⟩)
    · exact read
    · obtain ⟨b, read, -⟩ := exists_ofDer_of_ofPem read
      exact ⟨b, read⟩
  · exact .inl

/-- A certificate of few octets: the name of its issuer is empty, that of its subject is `CA`. -/
def smallest : Octets := [
  0x30, 0x54,
    0x30, 0x48,
      0x02, 0x01, 0x07,
      0x30, 0x05, 0x06, 0x03, 0x2b, 0x65, 0x70,
      0x30, 0x00,
      0x30, 0x1e,
        0x17, 0x0d, 0x32, 0x34, 0x30, 0x31, 0x30, 0x31, 0x30, 0x30, 0x30, 0x30, 0x30, 0x30, 0x5a,
        0x17, 0x0d, 0x32, 0x35, 0x30, 0x31, 0x30, 0x31, 0x30, 0x30, 0x30, 0x30, 0x30, 0x30, 0x5a,
      0x30, 0x0d, 0x31, 0x0b, 0x30, 0x09, 0x06, 0x03, 0x55, 0x04, 0x03, 0x0c, 0x02, 0x43, 0x41,
      0x30, 0x0b, 0x30, 0x05, 0x06, 0x03, 0x2b, 0x65, 0x70, 0x03, 0x02, 0x00, 0x2a,
    0x30, 0x05, 0x06, 0x03, 0x2b, 0x65, 0x70,
    0x03, 0x01, 0x00]

theorem read?_smallest : X509.read? smallest =
    some ⟨0, 7, [0x30, 0x00], (smallest.drop 48).take 15, ⟨[0x2b, 0x65, 0x70], []⟩, [0x2a]⟩ := by
  decide +kernel

theorem ofDer_smallest : ofDer smallest = .ok ⟨7, .ok smallest⟩ :=
  ofDer_of_read? read?_smallest rfl

end Certificate

end AcmeClient
