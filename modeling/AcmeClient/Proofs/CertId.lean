import AcmeClient.CertId
import AcmeClient.Proofs.Base64
import AcmeClient.Proofs.Certificate
import AcmeClient.Proofs.Issuer

/-!
# Reading back certificate identifiers

* `HashAlgorithm.length_digest`: the sizes of the hash values;
* `CertId.IsEncoding`: the one encoding of an identifier that the distinguished encoding allows;
* `CertId.decode?`: reading an identifier, behind which nothing may be left;
* `CertId.serial_eq_of_der_eq`: the serial number can be told from the encoding;
* **`CertId.encode_canonical`**: identifiers are encoded in this way, and are read back.
-/

namespace AcmeClient

namespace HashAlgorithm

/-- The number of octets of a hash value. -/
def size : HashAlgorithm → Nat
  | sha1 => 20
  | sha224 => 28
  | sha256 => 32
  | sha384 => 48
  | sha512 => 64

theorem length_flatMap_octets {w n : Nat} (words : List (BitVec w)) :
    (words.flatMap fun x => Octets.ofNatWidth n x.toNat).length = words.length * n := by
  induction words with
  | nil => rw [List.flatMap_nil, List.length_nil, List.length_nil, Nat.zero_mul]
  | cons x words ih =>
    rw [List.flatMap_cons, List.length_append, Octets.length_ofNatWidth, ih, List.length_cons,
      Nat.succ_mul, Nat.add_comm]

theorem length_sha2 {w : Nat} (v : Sha2.Variant w) (start : Sha2.Chain w) (m : Octets) :
    (Sha2.digest v start m).length = 8 * (w / 8) :=
  length_flatMap_octets [_, _, _, _, _, _, _, _]

theorem length_digest (a : HashAlgorithm) (b : Octets) : (a.digest b).length = a.size := by
  cases a with
  | sha1 => exact length_flatMap_octets [_, _, _, _, _]
  | sha224 =>
    rw [digest, AcmeClient.sha224, List.length_take, length_sha2]
    rfl
  | sha256 => exact length_sha2 _ _ b
  | sha384 =>
    rw [digest, AcmeClient.sha384, List.length_take, length_sha2]
    rfl
  | sha512 => exact length_sha2 _ _ b

theorem size_le (a : HashAlgorithm) : a.size ≤ 64 := by
  cases a <;> decide

theorem length_objectId_le (a : HashAlgorithm) : a.objectId.length ≤ 9 := by
  cases a <;> decide

theorem ofName?_name (a : HashAlgorithm) : ofName? a.name = some a := by
  cases a <;> decide +kernel

theorem ofValue_name (a : HashAlgorithm) : ofValue (.text a.name) = .ok a := by
  rw [ofValue, ofName?_name]

/-- The hash function of an object identifier. -/
def ofObjectId? (b : Octets) : Option HashAlgorithm :=
  all.find? fun a => a.objectId = b

theorem ofObjectId?_objectId (a : HashAlgorithm) : ofObjectId? a.objectId = some a := by
  cases a <;> decide

end HashAlgorithm

namespace CertId

variable {i : CertId} {b : Octets}

/-! ## The encoding -/

/-- The octets are one sequence of the hash function, without parameters, of the two hashes and of
the serial number in the shortest form; all lengths have the fewest octets, and nothing is left
over. -/
def IsEncoding (i : CertId) (b : Octets) : Prop :=
  ∃ id algorithm name key digits serial,
    Der.IsElement 0x30 (algorithm ++ name ++ key ++ serial) b ∧
    Der.IsElement 0x30 id algorithm ∧ Der.IsElement 0x06 i.algorithm.objectId id ∧
    Der.IsElement 0x04 i.nameHash name ∧ Der.IsElement 0x04 i.keyHash key ∧
    Der.IsElement 0x02 digits serial ∧ Der.isMinimal digits = true ∧ Der.signed digits = i.serial

/-- The identifier that octets encode. -/
def decode? (b : Octets) : Option CertId :=
  match Lenient.readElement? b with
  | some (whole, []) =>
    match whole.within? Der.Tag.sequence with
    | some [algorithm, name, key, serial] =>
      match algorithm.within? Der.Tag.sequence with
      | some [id] =>
        if id.tag = Der.Tag.objectId ∧ name.tag = Der.Tag.octetString ∧
            key.tag = Der.Tag.octetString ∧ serial.tag = Der.Tag.integer then do
          let a ← HashAlgorithm.ofObjectId? id.content
          let n ← Der.integer? serial.content
          some ⟨a, name.content, key.content, n⟩
        else none
      | _ => none
    | _ => none
  | _ => none

/-- The parts of the sequence, each with its tag and its content. -/
def parts (i : CertId) : List (UInt8 × Octets) :=
  [(0x30, Der.encode 0x06 i.algorithm.objectId), (0x04, i.nameHash), (0x04, i.keyHash),
    (0x02, Der.encodeInteger i.serial)]

theorem der_eq (i : CertId) :
    i.der = Der.encode 0x30 (i.parts.flatMap fun p => Der.encode p.1 p.2) := by
  rw [der, parts]
  simp only [List.flatMap_cons, List.flatMap_nil, List.append_nil, List.append_assoc]

/-- All contents within an identifier have a length that can be written. -/
structure Small (i : CertId) : Prop where
  whole : (i.parts.flatMap fun p => Der.encode p.1 p.2).length < 256 ^ 126
  part : ∀ p ∈ i.parts, p.2.length < 256 ^ 126
  id : i.algorithm.objectId.length < 256 ^ 126

theorem small_of_whole (h : (i.parts.flatMap fun p => Der.encode p.1 p.2).length < 256 ^ 126) :
    Small i where
  whole := h
  part p hp := by
    have inside : (Der.encode p.1 p.2).length ≤
        (i.parts.flatMap fun p => Der.encode p.1 p.2).length := by
      obtain ⟨front, back, split⟩ := List.append_of_mem hp
      rw [split, List.flatMap_append, List.flatMap_cons, List.length_append, List.length_append]
      omega
    exact (Der.length_content_lt p.1 p.2).trans (inside.trans_lt h)
  id := (HashAlgorithm.length_objectId_le _).trans_lt (by decide)

/-- Every serial number of fewer than `256 ^ 125` octets leaves the encoding small enough. -/
theorem small_of_width (hn : i.nameHash.length ≤ 64) (hk : i.keyHash.length ≤ 64)
    (h : Der.integerWidth i.serial < 256 ^ 125) : Small i := by
  refine small_of_whole ?_
  have short {n : Nat} (hn : n < 128) : (Der.encodeLength n).length = 1 := by
    rw [Der.length_encodeLength, if_pos hn]
  have id := HashAlgorithm.length_objectId_le i.algorithm
  have width := Der.length_encodeInteger i.serial
  have digits : (Der.encodeLength (Der.integerWidth i.serial)).length ≤ 126 := by
    have := Octets.widthOf_le (w := 125) (by decide) h
    rw [Der.length_encodeLength]
    split <;> omega
  have room : 256 ^ 126 = 256 * 256 ^ 125 := by rw [pow_succ']
  have large : 1000 ≤ 256 ^ 125 := by decide
  have algorithm : (Der.encode 0x06 i.algorithm.objectId).length =
      2 + i.algorithm.objectId.length := by
    rw [Der.length_encode, short (by omega)]
  simp only [parts, List.flatMap_cons, List.flatMap_nil, List.append_nil, List.length_append]
  rw [Der.length_encode _ (Der.encode _ _), Der.length_encode _ i.nameHash,
    Der.length_encode _ i.keyHash, Der.length_encode _ (Der.encodeInteger _), algorithm, width,
    short (by omega), short (n := i.nameHash.length) (by omega),
    short (n := i.keyHash.length) (by omega), room]
  -- the powers are too large to be computed with
  generalize 256 ^ 125 = p at h large
  omega

theorem isEncoding_der (h : Small i) : IsEncoding i i.der := by
  have part (tag : UInt8) (c : Octets) (hp : (tag, c) ∈ i.parts) :
      Der.IsElement tag c (Der.encode tag c) :=
    Der.isElement_encode tag (h.part (tag, c) hp)
  have whole := Der.isElement_encode 0x30 h.whole
  rw [← der_eq] at whole
  refine ⟨_, _, _, _, _, _, ?_, part 0x30 (Der.encode 0x06 i.algorithm.objectId) (by simp [parts]),
    Der.isElement_encode 0x06 h.id, part 0x04 i.nameHash (by simp [parts]),
    part 0x04 i.keyHash (by simp [parts]), part 0x02 (Der.encodeInteger i.serial) (by simp [parts]),
    Der.isMinimal_encodeInteger _, Der.signed_encodeInteger _⟩
  simpa [parts] using whole

theorem eq_der (h : IsEncoding i b) : b = i.der := by
  obtain ⟨id, algorithm, name, key, digits, serial, whole, halgorithm, hid, hname, hkey, hserial,
    minimal, value⟩ := h
  have shortest := Der.eq_encodeInteger minimal
  rw [value] at shortest
  rw [der, Der.eq_encode whole, Der.eq_encode halgorithm, Der.eq_encode hid, Der.eq_encode hname,
    Der.eq_encode hkey, Der.eq_encode hserial, shortest]

theorem decode?_der (h : Small i) : decode? i.der = some i := by
  have tags : ∀ p ∈ i.parts, p.1.toNat % 32 < 31 := by simp [parts]
  have whole := Lenient.readElement?_encode (x := 0x30) (by decide) h.whole []
  have inner := Lenient.children?_encode tags h.part
  have id := @Lenient.children?_encode [(0x06, i.algorithm.objectId)] (by simp)
    (by simpa using h.id)
  rw [List.append_nil, ← der_eq] at whole
  rw [List.flatMap_cons, List.flatMap_nil, List.append_nil] at id
  have outer : (Lenient.written 0x30 (i.parts.flatMap fun p => Der.encode p.1 p.2)).within?
      Der.Tag.sequence = some (i.parts.map fun p => Lenient.written p.1 p.2) :=
    (if_pos rfl).trans inner
  have algorithm : (Lenient.written 0x30 (Der.encode 0x06 i.algorithm.objectId)).within?
      Der.Tag.sequence = some [Lenient.written 0x06 i.algorithm.objectId] :=
    (if_pos rfl).trans id
  have serial : Der.integer? (Der.encodeInteger i.serial) = some i.serial := by
    rw [Der.integer?, if_pos (Der.isMinimal_encodeInteger _), Der.signed_encodeInteger]
  rw [parts] at outer
  rw [decode?, whole, parts]
  dsimp only
  rw [outer]
  simp only [List.map_cons, List.map_nil, algorithm]
  rw [if_pos ⟨rfl, rfl, rfl, rfl⟩]
  dsimp only [Lenient.written]
  rw [HashAlgorithm.ofObjectId?_objectId, serial]
  rfl

/-- The serial number can be told from the encoding, whatever its size. -/
theorem serial_eq_of_der_eq {n m : Int}
    (h : { i with serial := n }.der = { i with serial := m }.der) : n = m := by
  have contents := Der.encode_inj h
  have serials := List.append_cancel_left contents
  exact Der.encodeInteger_inj (Der.encode_inj serials)

/-! ## Issuers -/

section Encode

variable {a : HashAlgorithm} {der : Octets} {issuer : Certificate} {g : Certificate.Given} {n : Int}

theorem ofGiven_eq (loaded : Certificate.ofDer der = .ok issuer)
    (given : g = .octets der ∨ g = .certificate issuer) : Issuer.ofGiven g = Issuer.ofDer der := by
  rcases given with rfl | rfl
  · rfl
  · rw [Issuer.ofGiven, Certificate.Given.encode, Certificate.encode_of_ofDer loaded]
    rfl

theorem exists_of_encode (loaded : Certificate.ofDer der = .ok issuer)
    (given : g = .octets der ∨ g = .certificate issuer)
    (encoded : encode (.text a.name) g (.int n) = .ok b) :
    ∃ d, X509.read der = .ok d ∧ X509.read? der = some d ∧
      b = (CertId.mk a (a.digest d.subject) (a.digest d.key) n).der := by
  obtain ⟨d, hd, -⟩ := Certificate.ofDer_eq_ok_iff.mp loaded
  have read := X509.read?_of_read hd
  refine ⟨d, hd, read, ?_⟩
  rw [encode, HashAlgorithm.ofValue_name, ofGiven_eq loaded given] at encoded
  cases hi : Issuer.ofDer der with
  | error e =>
    rw [hi] at encoded
    cases encoded
  | ok i =>
    rw [hi] at encoded
    rw [Issuer.ofDer, wrapWhen_eq_ok_iff] at hi
    obtain rfl := Issuer.eq_of_extract read hi
    exact (Except.ok.inj encoded).symm

/-- **Identifiers are encoded in one way only, and nothing is lost.** They hold the hashes of the
name and of the key of the subject, as these stand in the certificate of the issuer. The encoding is
the only one that the distinguished encoding allows, and it is read back; lengths of `256 ^ 126` and
more cannot be written at all. Serial numbers that differ, of any size, never share an
identifier. -/
theorem encode_canonical (loaded : Certificate.ofDer der = .ok issuer)
    (given : g = .octets der ∨ g = .certificate issuer)
    (encoded : encode (.text a.name) g (.int n) = .ok b) :
    ∃ d, X509.read der = .ok d ∧ d.subject <:+: der ∧ d.key <:+: der ∧
      (Der.integerWidth n < 256 ^ 125 →
        IsEncoding ⟨a, a.digest d.subject, a.digest d.key, n⟩ b ∧
        (∀ c, IsEncoding ⟨a, a.digest d.subject, a.digest d.key, n⟩ c → c = b) ∧
        decode? b = some ⟨a, a.digest d.subject, a.digest d.key, n⟩) ∧
      (∀ m, encode (.text a.name) g (.int m) = .ok b → m = n) ∧
      ∃ t, text (.text a.name) g (.int n) = .ok t ∧ Base64.decodeUrl? t = some b := by
  obtain ⟨d, hd, read, hb⟩ := exists_of_encode loaded given encoded
  obtain ⟨subject, key⟩ := X509.infix_of_read? read
  refine ⟨d, hd, subject, key, fun width => ?_, fun m hm => ?_, ?_⟩
  · have size (c : Octets) : (a.digest c).length ≤ 64 :=
      (HashAlgorithm.length_digest a c).trans_le a.size_le
    have small := small_of_width (i := ⟨a, a.digest d.subject, a.digest d.key, n⟩) (size _) (size _)
      width
    rw [hb]
    exact ⟨isEncoding_der small, fun c => eq_der, decode?_der small⟩
  · obtain ⟨d', hd', -, hb'⟩ := exists_of_encode loaded given hm
    obtain rfl : d' = d := Except.ok.inj (hd'.symm.trans hd)
    have same := hb'.symm.trans hb
    exact serial_eq_of_der_eq (i := ⟨a, a.digest d'.subject, a.digest d'.key, n⟩) same
  · refine ⟨Base64.encodeUrl b, ?_, Base64.decodeUrl?_encodeUrl b⟩
    rw [text, encoded]
    rfl

end Encode

theorem extract_smallest :
    Issuer.extract Certificate.smallest = .ok ⟨(Certificate.smallest.drop 48).take 15, [0x2a]⟩ := by
  have found : (Issuer.extract Certificate.smallest).toOption =
      some ⟨(Certificate.smallest.drop 48).take 15, [0x2a]⟩ := by
    decide +kernel
  cases h : Issuer.extract Certificate.smallest with
  | error e =>
    rw [h] at found
    cases found
  | ok i =>
    rw [h] at found
    rw [Option.some.inj found]

/-- A negative serial number whose first octet would be that of a positive one. -/
theorem encode_canonical_negative :
    let encoded := encode (.text "sha256") (.octets Certificate.smallest) (.int (-129))
    ∃ b d, encoded = .ok b ∧ X509.read Certificate.smallest = .ok d ∧
      decode? b = some ⟨.sha256, sha256 d.subject, sha256 d.key, -129⟩ := by
  obtain ⟨i, hi⟩ : ∃ i, Issuer.ofDer Certificate.smallest = .ok i := by
    rw [Issuer.ofDer]
    exact ⟨_, wrapWhen_eq_ok_iff.mpr extract_smallest⟩
  have encoded : encode (.text HashAlgorithm.sha256.name) (.octets Certificate.smallest)
      (.int (-129)) = .ok (ofIssuer .sha256 i (-129)).der := by
    rw [encode, HashAlgorithm.ofValue_name, ofGiven_eq Certificate.ofDer_smallest (.inl rfl), hi]
    rfl
  obtain ⟨d, hd, -, -, canonical, -, -⟩ :=
    encode_canonical Certificate.ofDer_smallest (.inl rfl) encoded
  exact ⟨_, d, encoded, hd, (canonical (by decide +kernel)).2.2⟩

end CertId

end AcmeClient
