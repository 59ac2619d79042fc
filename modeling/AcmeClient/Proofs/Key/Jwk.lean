import AcmeClient.Proofs.Base64
import AcmeClient.Proofs.Key.Reader
import AcmeClient.Proofs.Key.Signature

/-!
# Web keys

RFC 7518 and RFC 8037 say how a public key is read from the members of a web key: numbers of RSA
keys have the fewest octets, coordinates and keys on Edwards curves have as many octets as the curve
asks for, and nothing else is a key. RFC 7518 also says what a signature with the name of an
algorithm is.

* `PublicKey.ofJwk?`: the public key of a web key, read as strictly as that;
* `PublicKey.Fits`, **`PublicKey.ofJwk?_jwk`**, `PublicKey.jwk_inj`: keys whose numbers have the
  octets for them are read back, so a web key belongs to one key only;
* `PrivateKey.exists_publicKey`: the public keys of keys in use are such keys;
* `PrivateKey.SignedBy`, `PrivateKey.signedBy_iff`: what is signed with an algorithm, by its name;
* **`PrivateKey.jwk_determines`**: web keys stand for public keys.
-/

namespace AcmeClient

namespace PublicKey

/-! ## Reading web keys -/

/-- A member that is a text. -/
def textOf? (ms : Members) (name : String) : Option String :=
  match ms.find? name with
  | some (.text s) => some s
  | _ => none

/-- The octets of a member. -/
def octetsOf? (ms : Members) (name : String) : Option Octets :=
  (textOf? ms name).bind Base64.decodeUrl?

/-- The number that is written with the fewest octets. -/
def shortest? : Octets → Option Nat
  | [] => none
  | x :: b => if x = 0 then none else some (Octets.toNat (x :: b))

/-- The number that is written with `w` octets. -/
def fixed? (w : Nat) (b : Octets) : Option Nat :=
  if b.length = w then some b.toNat else none

/-- Curves by their names, with the octets of a coordinate. -/
def pointNames : List (String × Curve × Nat) :=
  [("P-256", .p256, 32), ("P-384", .p384, 48), ("P-521", .p521, 66)]

/-- Edwards curves by their names, with the octets of a key. -/
def edwardsNames : List (String × EdCurve × Nat) :=
  [("Ed25519", .ed25519, 32), ("Ed448", .ed448, 57)]

/-- The public key of a web key. -/
def ofJwk? (ms : Members) : Option PublicKey := do
  let kind ← textOf? ms "kty"
  if kind = "RSA" then
    let n ← shortest? (← octetsOf? ms "n")
    let e ← shortest? (← octetsOf? ms "e")
    some (.rsa n e)
  else if kind = "EC" then
    let (c, w) ← pointNames.lookup (← textOf? ms "crv")
    let x ← fixed? w (← octetsOf? ms "x")
    let y ← fixed? w (← octetsOf? ms "y")
    some (.point c x y)
  else if kind = "OKP" then
    let (c, w) ← edwardsNames.lookup (← textOf? ms "crv")
    let b ← octetsOf? ms "x"
    if b.length = w then some (.edwards c b) else none
  else none

/-- Numbers and octets of a key have the size that goes with its kind. -/
def Fits : PublicKey → Prop
  | rsa n e => 0 < n ∧ 0 < e
  | point c x y => x < 256 ^ c.width ∧ y < 256 ^ c.width
  | edwards c b => b.length = c.width

variable {p q : PublicKey} {ms ns : Members}

theorem ofJwk?_congr (h : ∀ name, ms.find? name = ns.find? name) : ofJwk? ms = ofJwk? ns := by
  have text : textOf? ms = textOf? ns := funext fun name => by rw [textOf?, textOf?, h]
  have octets : octetsOf? ms = octetsOf? ns := funext fun name => by rw [octetsOf?, octetsOf?, text]
  rw [ofJwk?, ofJwk?, text, octets]

theorem octetsOf?_of_find? {name : String} {b : Octets} (h : ms.find? name = some (member b)) :
    octetsOf? ms name = some b := by
  rw [octetsOf?, textOf?, h]
  exact Base64.decodeUrl?_encodeUrl b

theorem shortest?_ofNat {n : Nat} (h : 0 < n) : shortest? (Octets.ofNat n) = some n := by
  have first := Octets.head?_ofNat h.ne'
  have value := Octets.toNat_ofNat n
  cases hb : Octets.ofNat n with
  | nil =>
    rw [hb] at value
    exact absurd value h.ne
  | cons x b =>
    rw [hb] at first value
    rw [shortest?, if_neg fun hx => first (congrArg some hx), value]

theorem fixed?_ofNatWidth {w n : Nat} (h : n < 256 ^ w) :
    fixed? w (Octets.ofNatWidth w n) = some n := by
  rw [fixed?, if_pos (Octets.length_ofNatWidth w n), Octets.toNat_ofNatWidth, Nat.mod_eq_of_lt h]

/-- **A key is read back from its web key.** -/
theorem ofJwk?_jwk (h : p.Fits) : ofJwk? p.jwk = some p := by
  cases p with
  | rsa n e =>
    have modulus := octetsOf?_of_find?
      (show (rsa n e).jwk.find? "n" = some (member (Octets.ofNat n)) from rfl)
    have exponent := octetsOf?_of_find?
      (show (rsa n e).jwk.find? "e" = some (member (Octets.ofNat e)) from rfl)
    have kind : textOf? (rsa n e).jwk "kty" = some "RSA" := rfl
    simp [ofJwk?, kind, modulus, exponent, shortest?_ofNat h.1, shortest?_ofNat h.2]
  | point c x y =>
    have first := octetsOf?_of_find?
      (show (point c x y).jwk.find? "x" = some (member (Octets.ofNatWidth c.width x)) from rfl)
    have second := octetsOf?_of_find?
      (show (point c x y).jwk.find? "y" = some (member (Octets.ofNatWidth c.width y)) from rfl)
    have kind : textOf? (point c x y).jwk "kty" = some "EC" := rfl
    have curve : textOf? (point c x y).jwk "crv" = some c.name := rfl
    have known : pointNames.lookup c.name = some (c, c.width) := by cases c <;> rfl
    simp [ofJwk?, kind, curve, known, first, second, fixed?_ofNatWidth h.1, fixed?_ofNatWidth h.2]
  | edwards c b =>
    have octets := octetsOf?_of_find? (show (edwards c b).jwk.find? "x" = some (member b) from rfl)
    have kind : textOf? (edwards c b).jwk "kty" = some "OKP" := rfl
    have curve : textOf? (edwards c b).jwk "crv" = some c.name := rfl
    have known : edwardsNames.lookup c.name = some (c, c.width) := by cases c <;> rfl
    have width : b.length = c.width := h
    simp [ofJwk?, kind, curve, known, octets, width]

/-- A web key belongs to one public key only. -/
theorem jwk_inj (hp : p.Fits) (hq : q.Fits) (h : ∀ name, p.jwk.find? name = q.jwk.find? name) :
    p = q := by
  have same := ofJwk?_congr h
  rw [ofJwk?_jwk hp, ofJwk?_jwk hq] at same
  exact Option.some.inj same

end PublicKey

namespace PrivateKey

open PublicKey (ofJwk? ofJwk?_jwk jwk_inj)

variable {k : PrivateKey} {p : PublicKey} {m b : Octets} {name : String}

/-- A key in use has a public key. -/
theorem exists_publicKey (h : k.Usable) : ∃ p, k.publicKey = .ok p ∧ p.Fits := by
  cases h with
  | rsa modulus exponent => exact ⟨_, rfl, modulus, exponent⟩
  | @point c d x y h =>
    obtain ⟨hx, hy⟩ := Weierstrass.lt_of_multiple c.modulus_pos h
    refine ⟨.point c x y, ?_, hx.trans c.modulus_lt, hy.trans c.modulus_lt⟩
    rw [publicKey, publicKey?, h]
    rfl
  | edwards c seed => exact ⟨_, rfl, EdDsa.length_publicKey c seed⟩

/-! ## The names of algorithms -/

/-- The algorithms on curves by their names, with their hash functions. -/
def curveAlgorithms : List (String × Curve × (Octets → Octets)) :=
  [("ES256", .p256, sha256), ("ES384", .p384, sha384), ("ES512", .p521, sha512)]

/-- The octets are a signature of a message by the algorithm with a name. -/
inductive SignedBy : String → PrivateKey → Octets → Octets → Prop
  /-- The hash value is padded to the width of the modulus and raised to the private exponent. -/
  | rsa (k : RsaKey) (m padded : Octets) (width : padded.length = k.width)
      (form : ∃ w, 8 ≤ w ∧
        padded = 0 :: 1 :: List.replicate w 0xff ++ 0 :: (RsaKey.digestHead ++ sha256 m)) :
      SignedBy "RS256" (.rsa k) m
        (Octets.ofNatWidth k.width (Modular.pow padded.toNat k.privateExponent k.modulus))
  /-- Both numbers of a signature of the hash value, with some secret number. -/
  | point {name : String} {c : Curve} {hash : Octets → Octets} (d secret : Nat) (m : Octets)
      (known : (name, c, hash) ∈ curveAlgorithms) :
      SignedBy name (.point c d) m
        (Ecdsa.raw c (Ecdsa.signWith c d (Ecdsa.leadingBits c (hash m)) secret))
  | edwards (c : EdCurve) (seed m : Octets) :
      SignedBy "EdDSA" (.edwards c seed) m (EdDsa.sign c seed m)

theorem mem_curveAlgorithms (c : Curve) : (c.algorithm, c, c.digest) ∈ curveAlgorithms := by
  cases c
  · exact .head _
  · exact .tail _ (.head _)
  · exact .tail _ (.tail _ (.head _))

theorem algorithm_of_signedBy (hp : k.publicKey = .ok p) (h : SignedBy name k m b) :
    name = p.algorithm := by
  cases h with
  | rsa k m padded width form =>
    cases hp
    rfl
  | @point name c hash d secret m known =>
    have named : name = c.algorithm := by
      simp only [curveAlgorithms, List.mem_cons, List.not_mem_nil, or_false, Prod.mk.injEq] at known
      rcases known with ⟨rfl, rfl, -⟩ | ⟨rfl, rfl, -⟩ | ⟨rfl, rfl, -⟩ <;> rfl
    rw [publicKey, publicKey?] at hp
    cases hq : c.parameters.multiple d c.parameters.generator with
    | none =>
      rw [hq] at hp
      cases hp
    | some q =>
      rw [hq] at hp
      cases hp
      exact named
  | edwards c seed m =>
    cases hp
    rfl

theorem signedBy_of_signOctets (hp : k.publicKey = .ok p)
    (h : k.signOctets derivingSigner m = .ok b) : SignedBy p.algorithm k m b := by
  cases k with
  | rsa k =>
    cases hp
    rw [signOctets, RsaKey.sign?, RsaKey.padded?] at h
    split_ifs at h with narrow
    · cases h
    · cases h
      refine .rsa k m _ ?_ ⟨_, ?_, rfl⟩ <;>
        simp only [List.length_cons, List.length_append, List.length_replicate] at narrow ⊢ <;> omega
  | point c d =>
    rw [signOctets_point] at h
    cases h
    obtain ⟨secret, made⟩ := Ecdsa.exists_signWith (c := c) (d := d)
      (z := Ecdsa.messageNumber c m) 64 (Ecdsa.Source.start c d m)
    have signed := SignedBy.point d secret m (mem_curveAlgorithms c)
    rw [Ecdsa.sign, made]
    rwa [algorithm_of_signedBy hp signed] at signed
  | edwards c seed =>
    cases hp
    cases h
    exact .edwards c seed m
  | foreign => cases hp

/-- What is signed is signed with the algorithm of the public key, and with no other. -/
theorem signedBy_iff (hp : k.publicKey = .ok p) (h : k.signOctets derivingSigner m = .ok b) :
    SignedBy name k m b ↔ name = p.algorithm :=
  ⟨algorithm_of_signedBy hp, fun same => same ▸ signedBy_of_signOctets hp h⟩

theorem exists_sign_of_usable (h : k.Usable) (t : String) :
    (∃ b, k.sign t = .ok b) ∨ ∃ r, k = .rsa r ∧ r.width < 62 := by
  cases h with
  | @rsa r modulus exponent =>
    by_cases wide : 62 ≤ r.width
    · exact .inl (exists_sign_rsa_iff.mpr wide)
    · exact .inr ⟨r, rfl, Nat.not_le.mp wide⟩
  | @point c d x y _ => exact .inl ⟨_, sign_point c d t⟩
  | edwards c seed => exact .inl ⟨_, rfl⟩

/-! ## Web keys of private keys -/

/-- **Web keys stand for public keys.** Every key that is read is of a foreign kind or can be used.
A key that can be used has a public key, which is read back from its web key, with the fewest octets
for the numbers of an RSA key and with all octets of coordinates and of keys on Edwards curves. Web
keys of two such keys are the same exactly if the public keys are. Every text is signed with the
algorithm that the public key names and with no other, unless the modulus of an RSA key is too
narrow. -/
theorem jwk_determines :
    (∀ s k, ofPem s = .ok k → k = .foreign ∨ k.Usable) ∧
    (∀ k : PrivateKey, k.Usable → ∃ p, k.publicKey = .ok p ∧ ofJwk? p.jwk = some p ∧
      ∀ t, (∃ b, k.sign t = .ok b ∧
          ∀ name, SignedBy name k (Octets.ofString t) b ↔ name = p.algorithm) ∨
        ∃ r, k = .rsa r ∧ r.width < 62) ∧
    ∀ (k l : PrivateKey) (p q : PublicKey), k.Usable → l.Usable → k.publicKey = .ok p →
      l.publicKey = .ok q → ((∀ name, p.jwk.find? name = q.jwk.find? name) ↔ p = q) := by
  refine ⟨fun s k => usable_of_ofPem, fun k hk => ?_,
    fun k l p q hk hl hp hq => ⟨fun same => ?_, ?_⟩⟩
  · obtain ⟨p, hp, fits⟩ := exists_publicKey hk
    refine ⟨p, hp, ofJwk?_jwk fits, fun t => (exists_sign_of_usable hk t).imp_left ?_⟩
    rintro ⟨b, signed⟩
    exact ⟨b, signed, fun name => signedBy_iff hp signed⟩
  · obtain ⟨p', hp', fits⟩ := exists_publicKey hk
    obtain ⟨q', hq', fits'⟩ := exists_publicKey hl
    cases hp.symm.trans hp'
    cases hq.symm.trans hq'
    exact jwk_inj fits fits' same
  · rintro rfl name
    rfl

/-- A key whose first coordinate starts with a zero octet. -/
theorem jwk_determines_short : (point .p256 379).Usable ∧ ∃ p,
    (point .p256 379).publicKey = .ok p ∧ (∃ x y, p = .point .p256 x y ∧ x < 256 ^ 31) ∧
      ofJwk? p.jwk = some p := by
  obtain ⟨⟨x, y⟩, found, short⟩ : ∃ q : Nat × Nat,
      Curve.p256.parameters.multiple 379 Curve.p256.parameters.generator = some q ∧ q.1 < 256 ^ 31 :=
    ⟨(0x5543894af3d00ed7d740abdbd75c96b06877b787db5f70eea78b90a8d7c00a,
      0xbb4c85a3d8ea29efaafa24406912dd84d5b14dc32bf656ef6c6bd58a5d943f92),
      by decide +kernel, by decide⟩
  have usable : (point .p256 379).Usable := .point found
  have known : (point .p256 379).publicKey = .ok (.point .p256 x y) := by
    rw [publicKey, publicKey?, found]
    rfl
  obtain ⟨p, hp, read, -⟩ := jwk_determines.2.1 _ usable
  cases known.symm.trans hp
  exact ⟨usable, _, known, ⟨x, y, rfl, short⟩, read⟩

end PrivateKey

end AcmeClient
