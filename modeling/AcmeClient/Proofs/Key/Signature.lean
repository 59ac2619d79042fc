import AcmeClient.Key.Private
import AcmeClient.Proofs.CertId
import AcmeClient.Proofs.Curve
import AcmeClient.Proofs.Der.Strict

/-!
# The two numbers of a signature

A signer gives the two numbers of a signature in a form of varying width: short numbers take fewer
octets, and one more octet keeps the top bit of a number from being read as a sign. What is sent has
one width for each curve, and no number that a signer may give is too big for it.

* `Ecdsa.ofDer?_der`: the numbers are read back from the form of the signer;
* `Ecdsa.exists_signWith`, `Ecdsa.sign_lt`: the numbers of a signature are below the order;
* `Ecdsa.rawOfDer_der`, `PrivateKey.sign_point`: what is sent;
* `PrivateKey.exists_sign_rsa_iff`: whether an RSA key signs;
* **`PrivateKey.sign_keeps_both_numbers`**: its width, its halves, and that both numbers can be told
  from it.
-/

namespace AcmeClient

namespace Ecdsa

variable {c : Curve} {d z w r s : Nat} {m : Octets}

/-! ## The form of the signer -/

/-- The octets of a number that has fewer than 126 of them take one octet for their length. -/
theorem length_encode_integer_le (hw : w < 126) (h : r < 256 ^ w) :
    (Der.encode 0x02 (Der.encodeInteger r)).length ≤ w + 3 := by
  have width := Der.integerWidth_le (n := r) h
  rw [Der.length_encode, Der.length_encodeLength, Der.length_encodeInteger, if_pos (by omega)]
  omega

theorem numbers_encode (hr : Der.integerWidth r < 256 ^ 4) (hs : Der.integerWidth s < 256 ^ 4) :
    numbers (Der.encode 0x02 (Der.encodeInteger r) ++ Der.encode 0x02 (Der.encodeInteger s)) =
      some ((r, s), []) := by
  have last := X509.natural_encode hs []
  rw [List.append_nil] at last
  refine Der.Reader.bind_eq_some_iff.mpr ⟨r, _, X509.natural_encode hr _, ?_⟩
  exact Der.Reader.bind_eq_some_iff.mpr ⟨s, _, last, rfl⟩

/-- **Both numbers are read back from the form of the signer.** -/
theorem ofDer?_der (hw : w < 126) (hr : r < 256 ^ w) (hs : s < 256 ^ w) :
    ofDer? (der (r, s)) = some (r, s) := by
  have first := length_encode_integer_le hw hr
  have second := length_encode_integer_le hw hs
  have fits {n : Nat} (h : n < 256 ^ w) : Der.integerWidth n < 256 ^ 4 := by
    have width := Der.integerWidth_le (n := n) h
    omega
  have read := X509.within_encode (x := 0x30) (t := Der.Tag.sequence) (by decide) rfl
    (by rw [List.length_append]; omega) (numbers_encode (fits hr) (fits hs)) []
  rw [List.append_nil] at read
  rw [ofDer?, der, Der.readWhole?, read]

/-! ## The numbers of a signature -/

/-- A signature is made with some secret number, whatever the generator gives. -/
theorem exists_signWith (fuel : Nat) (g : Source) : ∃ k, signFrom c d z fuel g = signWith c d z k := by
  induction fuel generalizing g with
  | zero => exact ⟨1, rfl⟩
  | succ fuel ih =>
    rw [signFrom]
    dsimp only
    split_ifs
    · exact ⟨_, rfl⟩
    · exact ih _
    · exact ih _

theorem signWith_lt (c : Curve) (d z k : Nat) :
    (signWith c d z k).1 < c.parameters.n ∧ (signWith c d z k).2 < c.parameters.n :=
  ⟨Nat.mod_lt _ c.order_pos, Nat.mod_lt _ c.order_pos⟩

theorem sign_lt (c : Curve) (d : Nat) (m : Octets) :
    (sign c d m).1 < c.parameters.n ∧ (sign c d m).2 < c.parameters.n := by
  obtain ⟨k, hk⟩ := exists_signWith (c := c) (d := d) (z := messageNumber c m) 64
    (Source.start c d m)
  rw [sign, hk]
  exact signWith_lt c d _ k

/-! ## What is sent -/

theorem fieldWidth_eq (c : Curve) : fieldWidth c = c.width := by
  cases c <;> rfl

theorem length_raw (c : Curve) (s : Nat × Nat) : (raw c s).length = 2 * c.width := by
  rw [raw, List.length_append, Octets.length_ofNatWidth, Octets.length_ofNatWidth, Nat.two_mul]

theorem field_of_lt (h : r < 256 ^ w) : field w r = .ok (Octets.ofNatWidth w r) := by
  rw [field, Nat.one_shiftLeft, Octets.pow_mul_eight, if_pos h]

/-- What is sent is never refused. -/
theorem rawOfDer_der {g : Nat × Nat} (hr : g.1 < c.parameters.n) (hs : g.2 < c.parameters.n) :
    rawOfDer c (der g) = .ok (raw c g) := by
  have narrow : c.width < 126 := by cases c <;> decide
  have fits {n : Nat} (h : n < c.parameters.n) : n < 256 ^ c.width := h.trans c.order_lt
  have read : ofDer? (der g) = some g := ofDer?_der narrow (fits hr) (fits hs)
  rw [rawOfDer, read]
  dsimp only
  rw [fieldWidth_eq, field_of_lt (fits hr), field_of_lt (fits hs)]
  rfl

theorem halves_raw (hr : r < c.parameters.n) (hs : s < c.parameters.n) :
    Octets.toNat ((raw c (r, s)).take c.width) = r ∧
      Octets.toNat ((raw c (r, s)).drop c.width) = s := by
  have fits {n : Nat} (h : n < c.parameters.n) : n % 256 ^ c.width = n :=
    Nat.mod_eq_of_lt (h.trans c.order_lt)
  rw [raw, List.take_left' (Octets.length_ofNatWidth _ _),
    List.drop_left' (Octets.length_ofNatWidth _ _), Octets.toNat_ofNatWidth,
    Octets.toNat_ofNatWidth, fits hr, fits hs]
  exact ⟨rfl, rfl⟩

end Ecdsa

namespace PrivateKey

open Ecdsa (der sign_lt raw length_raw halves_raw rawOfDer_der)

theorem signOctets_point (c : Curve) (d : Nat) (m : Octets) :
    (point c d).signOctets derivingSigner m = .ok (raw c (Ecdsa.sign c d m)) := by
  obtain ⟨hr, hs⟩ := sign_lt c d m
  rw [signOctets, derivingSigner, rawOfDer_der hr hs]

/-- A key signs whatever the text is if its modulus has room for the padded hash value. -/
theorem exists_sign_rsa_iff {k : RsaKey} {t : String} :
    (∃ b, (rsa k).sign t = .ok b) ↔ 62 ≤ k.width := by
  have size : (RsaKey.digestHead ++ sha256 (Octets.ofString t)).length = 51 := by
    have hash : (sha256 (Octets.ofString t)).length = 32 :=
      HashAlgorithm.length_digest .sha256 (Octets.ofString t)
    rw [List.length_append, hash]
    rfl
  rw [sign, signBy, signOctets, RsaKey.sign?, RsaKey.padded?, size]
  split_ifs with narrow
  · exact ⟨nofun, fun wide => absurd narrow (Nat.not_lt.mpr wide)⟩
  · exact ⟨fun _ => Nat.not_lt.mp narrow, fun _ => ⟨_, rfl⟩⟩

theorem sign_point (c : Curve) (d : Nat) (t : String) :
    (point c d).sign t = .ok (raw c (Ecdsa.sign c d (Octets.ofString t))) := by
  rw [sign, signBy, signOctets_point]

/-- **What is sent keeps both numbers of a signature.** Whatever pair of numbers below the order a
signer gives, however short they are and whether or not their top bits are set, it is sent in 64, 96
or 132 octets, by the curve. The first half is the first number and the second half the second one,
so different pairs are never sent as the same octets. The signer in use gives such pairs. -/
theorem sign_keeps_both_numbers (c : Curve) (d : Nat) (t : String) :
    (∀ (signer : Signer) r s, r < c.parameters.n → s < c.parameters.n →
      signer c d (Octets.ofString t) = der (r, s) →
        ∃ b, (point c d).signBy signer t = .ok b ∧
          (c, b.length) ∈ [(Curve.p256, 64), (Curve.p384, 96), (Curve.p521, 132)] ∧
          Octets.toNat (b.take (b.length / 2)) = r ∧ Octets.toNat (b.drop (b.length / 2)) = s ∧
          ∀ (other : Signer) r' s', r' < c.parameters.n → s' < c.parameters.n →
            other c d (Octets.ofString t) = der (r', s') →
              (point c d).signBy other t = .ok b → r' = r ∧ s' = s) ∧
    ∃ r s, r < c.parameters.n ∧ s < c.parameters.n ∧
      derivingSigner c d (Octets.ofString t) = der (r, s) ∧
      (point c d).sign t = (point c d).signBy derivingSigner t := by
  have sent {signer : Signer} {r s : Nat} (hr : r < c.parameters.n) (hs : s < c.parameters.n)
      (h : signer c d (Octets.ofString t) = der (r, s)) :
      (point c d).signBy signer t = .ok (raw c (r, s)) := by
    rw [signBy, signOctets, h]
    exact rawOfDer_der hr hs
  refine ⟨fun signer r s hr hs h => ?_, ?_⟩
  · have half : (raw c (r, s)).length / 2 = c.width := by rw [length_raw]; omega
    obtain ⟨first, second⟩ := halves_raw hr hs
    refine ⟨raw c (r, s), sent hr hs h, ?_, by rwa [half], by rwa [half], ?_⟩
    · rw [length_raw]
      cases c <;> decide
    · intro other r' s' hr' hs' h' same
      have octets := Except.ok.inj ((sent hr' hs' h').symm.trans same)
      obtain ⟨first', second'⟩ := halves_raw hr' hs'
      rw [octets] at first' second'
      exact ⟨first'.symm.trans first, second'.symm.trans second⟩
  · exact ⟨_, _, (sign_lt c d _).1, (sign_lt c d _).2, rfl, rfl⟩

/-- A short number before a number with its top bit set. -/
theorem sign_keeps_both_numbers_uneven : (der (1, 2 ^ 255)).length = 40 ∧
    ∃ b, (point .p256 7).signBy (fun _ _ _ => der (1, 2 ^ 255)) "text" = .ok b ∧ b.length = 64 ∧
      Octets.toNat (b.take 32) = 1 ∧ Octets.toNat (b.drop 32) = 2 ^ 255 := by
  refine ⟨by decide +kernel, ?_⟩
  obtain ⟨b, sent, width, first, second, -⟩ := (sign_keeps_both_numbers .p256 7 "text").1
    (fun _ _ _ => der (1, 2 ^ 255)) 1 (2 ^ 255) (by decide) (by decide) rfl
  have length : b.length = 64 := by simpa using width
  rw [length] at first second
  exact ⟨b, sent, length, first, second⟩

end PrivateKey

end AcmeClient
