import AcmeClient.Proofs.X509.Reading

/-!
# Strict reading of what is written

The strict reader takes lengths of at most four octets besides the first one.

* **`Der.readElement?_encode`**: an element that is written is read back, with what follows it;
* `X509.natural_encode`, `X509.within_encode`: so are numbers, and elements that consist of others.
-/

namespace AcmeClient

open Lenient (tagOf)

namespace Der

variable {n w : Nat} {x : UInt8} {c : Octets} {t : Tag}

theorem readLength?_encodeLength (h : n < 256 ^ 4) (r : Octets) :
    readLength? (encodeLength n ++ r) = some (n, r) := by
  rw [encodeLength]
  split
  case isTrue small =>
    have value : (UInt8.ofNat n).toNat = n :=
      UInt8.toNat_ofNat_of_lt' (Nat.lt_trans small (by decide))
    rw [List.singleton_append, readLength?, value, if_pos small]
  case isFalse large =>
    have width : Octets.widthOf n ≤ 4 := Octets.widthOf_le (by decide) h
    have pos := Octets.widthOf_pos n
    have length := Octets.length_ofNat n
    have value := toNat_mark (width.trans (by decide))
    have first : (Octets.ofNat n ++ r).head? ≠ some 0 := by
      rw [List.head?_append_of_ne_nil _ (List.length_pos_iff.mp (by omega))]
      exact Octets.head?_ofNat (by omega)
    have sized : ¬ (Octets.widthOf n = 0 ∨ Octets.widthOf n > 4 ∨
        (Octets.ofNat n ++ r).length < Octets.widthOf n) := by
      rw [List.length_append]
      omega
    rw [List.cons_append, readLength?, value, if_neg (by omega), Nat.add_sub_cancel_left,
      if_neg sized, ← length, List.take_left, List.drop_left, Octets.toNat_ofNat]
    exact if_neg fun hc => hc.elim large first

/-- **What is written is read back.** -/
theorem readElement?_encode (hx : x.toNat % 32 < 31) (h : c.length < 256 ^ 4) (r : Octets) :
    readElement? (encode x c ++ r) = some (⟨tagOf x, c, encode x c⟩, r) := by
  have tag : readTag? (encode x c ++ r) = some (tagOf x, encodeLength c.length ++ (c ++ r)) := by
    rw [encode, List.cons_append, List.cons_append, List.append_assoc, readTag?]
    exact if_pos hx
  have enough : ¬ (c ++ r).length < c.length := by
    rw [List.length_append]
    omega
  have whole : (encode x c ++ r).length - ((c ++ r).length - c.length) = (encode x c).length := by
    simp only [List.length_append]
    omega
  rw [readElement?, tag, Option.bind_eq_bind, Option.bind_some]
  dsimp only
  rw [readLength?_encodeLength h, Option.bind_eq_bind, Option.bind_some]
  dsimp only
  rw [if_neg enough, whole, List.take_left, List.take_left, List.drop_left]

theorem Reader.content_encode (hx : x.toNat % 32 < 31) (ht : tagOf x = t) (h : c.length < 256 ^ 4)
    (r : Octets) : Reader.content t (encode x c ++ r) = some (c, r) := by
  rw [Reader.content, readElement?_encode hx h]
  exact if_pos ht

theorem integerWidth_le {n : Int} (h : magnitude n < 256 ^ w) : integerWidth n ≤ w + 1 := by
  by_contra hc
  have least := le_magnitude (n := n) (by omega)
  have wide : 256 ^ (w + 1) ≤ 256 ^ (integerWidth n - 1) :=
    Nat.pow_le_pow_right (by decide) (by omega)
  rw [pow_succ] at wide
  omega

end Der

namespace X509

variable {α : Type} {x : UInt8} {c : Octets} {t : Der.Tag} {a : α} {reader : Der.Reader α}

theorem integer_encode {n : Int} (h : Der.integerWidth n < 256 ^ 4) (r : Octets) :
    integer (Der.encode 0x02 (Der.encodeInteger n) ++ r) = some (n, r) := by
  have content := Der.Reader.content_encode (x := 0x02) (t := Der.Tag.integer) (by decide) rfl
    ((Der.length_encodeInteger n).trans_lt h) r
  refine Der.Reader.bind_eq_some_iff.mpr ⟨_, _, content, ?_⟩
  rw [Der.integer?, if_pos (Der.isMinimal_encodeInteger n), Der.signed_encodeInteger]
  rfl

theorem natural_encode {n : Nat} (h : Der.integerWidth n < 256 ^ 4) (r : Octets) :
    natural (Der.encode 0x02 (Der.encodeInteger n) ++ r) = some (n, r) := by
  refine Der.Reader.bind_eq_some_iff.mpr ⟨n, r, integer_encode h r, ?_⟩
  exact Der.Reader.bind_eq_some_iff.mpr ⟨(), r, if_pos (decide_eq_true (Int.natCast_nonneg n)), rfl⟩

/-- An element that consists of what a reader takes. -/
theorem within_encode (hx : x.toNat % 32 < 31) (ht : tagOf x = t) (h : c.length < 256 ^ 4)
    (hc : reader c = some (a, [])) (r : Octets) :
    within t reader (Der.encode x c ++ r) = some (a, r) := by
  refine Der.Reader.bind_eq_some_iff.mpr ⟨c, r, Der.Reader.content_encode hx ht h r, ?_⟩
  rw [Der.readWhole?, hc]
  rfl

end X509

end AcmeClient
