import AcmeClient.Issuer
import AcmeClient.Proofs.X509.Reading

/-!
# Issuers and their certificates

The strict and the lenient reader find the same name and the same key in a certificate.

* `Issuer.eq_of_bits?`: the bits of a key are taken as they are;
* **`Issuer.eq_of_extract`**: name and key of an issuer are those of the subject of its certificate.
-/

namespace AcmeClient

namespace Issuer

variable {b : Octets} {d : X509.Document}

theorem demand_bind_eq_ok_iff {α β : Type} {o : Option α} {f : α → Except Error β} {y : β} :
    (demand o >>= f) = .ok y ↔ ∃ a, o = some a ∧ f a = .ok y := by
  cases o with
  | none =>
    constructor
    · rintro ⟨⟩
    · rintro ⟨_, ⟨⟩, _⟩
  | some a =>
    constructor
    · exact fun h => ⟨a, rfl, h⟩
    · rintro ⟨_, ⟨⟩, h⟩
      exact h

theorem demand_eq_ok_iff {α : Type} {o : Option α} {y : α} : demand o = .ok y ↔ o = some y := by
  cases o <;> simp [demand]

/-! ## Keys -/

theorem clearBits_eq {n : Nat} {bits : Octets} {x : UInt8} (h : bits.getLast? = some x)
    (zero : x.toNat % (1 <<< n) = 0) : clearBits n bits = bits := by
  have same : x.toNat / (1 <<< n) * (1 <<< n) = x.toNat :=
    Nat.div_mul_cancel (Nat.dvd_of_mod_eq_zero zero)
  rw [clearBits, h]
  dsimp only
  rw [same, UInt8.ofNat_toNat, List.dropLast_append_getLast? x h]

theorem eq_of_bits? {form : KeyForm} {u : UInt8} {bits k : Octets}
    (valid : X509.isBits (u :: bits) = true) (h : bits? form u bits = some k) : k = bits := by
  cases form with
  | element t =>
    rw [bits?] at h
    split at h
    · cases h
    · split at h
      · split at h
        · exact (Option.some.inj h).symm
        · cases h
      · cases h
  | opaqueBits =>
    rw [bits?] at h
    by_cases zero : u = 0
    · rw [if_pos zero] at h
      exact (Option.some.inj h).symm
    · rw [if_neg zero] at h
      split at h
      · cases h
      · rw [← Option.some.inj h]
        have some_unused : (u == 0) = false := beq_eq_false_iff_ne.mpr zero
        rw [X509.isBits, some_unused, Bool.false_or, Bool.and_eq_true] at valid
        cases hl : bits.getLast? with
        | none =>
          rw [hl] at valid
          cases valid.2
        | some x =>
          rw [hl] at valid
          exact clearBits_eq hl (beq_iff_eq.mp valid.2)

theorem eq_of_keyOf {info : Der.Element} {a : X509.Algorithm} {key k : Octets}
    (fields : X509.keyFields info.content = some ((a, key), []))
    (h : keyOf (Lenient.ofStrict info) = .ok k) : k = key := by
  obtain ⟨algorithm, bitString, leads, -, -, valid, rfl⟩ := X509.leads_of_keyFields fields
  obtain ⟨parts, hparts, h⟩ := demand_bind_eq_ok_iff.mp h
  obtain ⟨rest, rfl⟩ := leads.parts (Lenient.parts_of_within? hparts).2
  obtain ⟨algorithmParts, -, h⟩ := demand_bind_eq_ok_iff.mp h
  obtain ⟨id, -, h⟩ := demand_bind_eq_ok_iff.mp h
  obtain ⟨form, -, h⟩ := demand_bind_eq_ok_iff.mp h
  split at h
  · cases h
  · split at h
    · cases h
    case h_2 u bits content =>
      rw [show bitString.content = u :: bits from content] at valid ⊢
      exact eq_of_bits? valid (demand_eq_ok_iff.mp h)

/-! ## Certificates -/

theorem skipVersion_eq {version fields : List Der.Element} {serial : Der.Element}
    (hv : version = [] ∨ ∃ v, version = [v] ∧ v.tag = Der.Tag.explicit 0)
    (ht : serial.tag = Der.Tag.integer) (rest : List Lenient.Element) :
    skipVersion ((version ++ serial :: fields).map Lenient.ofStrict ++ rest) =
      (serial :: fields).map Lenient.ofStrict ++ rest := by
  rcases hv with rfl | ⟨v, rfl, tag⟩
  · have other : ¬ (serial.tag.family = 2 ∧ serial.tag.number = 0) := by
      rw [ht]
      decide
    exact if_neg other
  · have explicit : v.tag.family = 2 ∧ v.tag.number = 0 := by
      rw [tag]
      decide
    exact if_pos explicit

/-- **Name and key of an issuer are those of the subject of its certificate.** -/
theorem eq_of_extract {i : Issuer} (hd : X509.read? b = some d) (h : extract b = .ok i) :
    i = ⟨d.subject, d.key⟩ := by
  obtain ⟨e, first, -, fields⟩ := X509.element_of_read? hd
  obtain ⟨body, a, s, leads, -, bodyFields⟩ := X509.leads_of_certificateFields fields
  obtain ⟨version, serial, algorithm, issuer, validity, subject, info, c, leads', hversion, hserial,
    -, name, -, keyFields⟩ := X509.leads_of_bodyFields bodyFields
  obtain ⟨p, hp, h⟩ := demand_bind_eq_ok_iff.mp h
  rw [Lenient.readElement?_of_strict first] at hp
  obtain rfl := Option.some.inj hp
  obtain ⟨parts, hparts, h⟩ := demand_bind_eq_ok_iff.mp h
  obtain ⟨rest, rfl⟩ := leads.parts (Lenient.parts_of_within? hparts).2
  obtain ⟨parts', hparts', h⟩ := demand_bind_eq_ok_iff.mp h
  obtain ⟨rest', rfl⟩ := leads'.parts (Lenient.parts_of_within? hparts').2
  rw [skipVersion_eq hversion hserial] at h
  have taken : (if subject.tag ≠ Der.Tag.sequence then Except.error malformed
      else do
        let key ← keyOf (Lenient.ofStrict info)
        Except.ok (Issuer.mk subject.octets key)) = Except.ok i := h
  split at taken
  · cases taken
  · cases hk : keyOf (Lenient.ofStrict info) with
    | error x =>
      rw [hk] at taken
      cases taken
    | ok k =>
      rw [hk] at taken
      cases taken
      rw [eq_of_keyOf keyFields hk, ← name]

end Issuer

end AcmeClient
