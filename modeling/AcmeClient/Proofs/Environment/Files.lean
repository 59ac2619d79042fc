import AcmeClient.Environment
import AcmeClient.Proofs.Certificate
import AcmeClient.Proofs.Text.Utf8

/-!
# Files of certificates and keys

* `Files.textOf_pem`: the text of a PEM file;
* `Environment.readCertificate_eq`, `Environment.readKey_eq`: reading a file changes nothing;
* **`Environment.certificateOf_pem`**, **`Environment.keyOf_pem`**: a certificate and a key are read
  from files that hold their PEM blocks.
-/

namespace AcmeClient

namespace Files

variable {f g : Files}

theorem readValue_congr {p : String} (h : f.node p.toList = g.node p.toList) :
    f.readValue (.text p) = g.readValue (.text p) := by
  rw [readValue, readValue, read, read, h]

theorem unifyLines_of_notMem {s : List Char} (h : '\r' ∉ s) : unifyLines s = s := by
  induction s with
  | nil => rfl
  | cons c s ih =>
    rw [List.mem_cons, not_or] at h
    rw [unifyLines, ih h.2, if_neg (Ne.symm h.1)]
    rintro t rfl -
    exact h.1 rfl

/-- The octets of a PEM file. -/
def pem (label : String) (b : Octets) : Octets :=
  Octets.ofString (String.ofList (Pem.block label.toList b))

theorem textOf_pem {label : String} (hl : '\r' ∉ label.toList) (b : Octets) :
    textOf (pem label b) = .ok (String.ofList (Pem.block label.toList b)) := by
  rw [textOf, pem, Utf8.decode?_ofString]
  dsimp only
  rw [String.toList_ofList, unifyLines_of_notMem (Pem.return_notMem_block b hl)]

theorem readValue_pem {p label : String} {b : Octets}
    (h : f.node p.toList = .ok (.file (pem label b))) (hl : '\r' ∉ label.toList) :
    f.readValue (.text p) = .ok (String.ofList (Pem.block label.toList b)) := by
  rw [readValue, read, h]
  exact textOf_pem hl b

end Files

namespace Environment

/-- The certificate in the text of a file. -/
def certificateOf (r : Except Error String) : Except Error Certificate := do
  let s ← r
  Certificate.ofPem s.toList

theorem certificateOf_ok (s : String) : certificateOf (.ok s) = Certificate.ofPem s.toList :=
  rfl

theorem readCertificate_eq (p : Value) (v : Environment) :
    readCertificate p v = (certificateOf (v.files.readValue p), v) := by
  cases h : v.files.readValue p with
  | ok s => exact Action.bind_of_ok (congrArg (·, v) h)
  | error e => exact Action.bind_of_error (congrArg (·, v) h)

/-- The key in the text of a file. -/
def keyOf (r : Except Error String) : Except Error PrivateKey := do
  let s ← r
  PrivateKey.ofPem s.toList

theorem keyOf_ok (s : String) : keyOf (.ok s) = PrivateKey.ofPem s.toList :=
  rfl

theorem readKey_eq (p : Value) (v : Environment) :
    readKey p v = (keyOf (v.files.readValue p), v) := by
  cases h : v.files.readValue p with
  | ok s => exact Action.bind_of_ok (congrArg (·, v) h)
  | error e => exact Action.bind_of_error (congrArg (·, v) h)

variable {f : Files} {p : String} {b : Octets}

/-- **A certificate is read from a file that holds its PEM block.** -/
theorem certificateOf_pem {c : Certificate}
    (h : f.node p.toList = .ok (.file (Files.pem "CERTIFICATE" b)))
    (hc : Certificate.ofDer b = .ok c) : certificateOf (f.readValue (.text p)) = .ok c := by
  rw [Files.readValue_pem h (by decide), certificateOf_ok, String.toList_ofList,
    Certificate.ofPem_block hc]

theorem ofBlock_general (b : Octets) :
    PrivateKey.ofBlock ⟨"PRIVATE KEY".toList, [], b⟩ = PrivateKey.readGeneral b := by
  unfold PrivateKey.ofBlock
  exact if_pos rfl

/-- **A key is read from a file that holds its PEM block.** -/
theorem keyOf_pem {k : PrivateKey} (h : f.node p.toList = .ok (.file (Files.pem "PRIVATE KEY" b)))
    (hk : PrivateKey.readGeneral b = .ok k) : keyOf (f.readValue (.text p)) = .ok k := by
  have found : Pem.find? PrivateKey.labels (Pem.block "PRIVATE KEY".toList b) =
      some ⟨"PRIVATE KEY".toList, [], b⟩ :=
    Pem.find?_block b (by decide) (by decide) (by decide +kernel)
  rw [Files.readValue_pem h (by decide), keyOf_ok, String.toList_ofList, PrivateKey.ofPem, found]
  dsimp only
  rw [ofBlock_general, hk]
  rfl

end Environment

end AcmeClient
