import AcmeClient.Curve.Registry
import AcmeClient.Key.EdDsa
import AcmeClient.Proofs.Octets

/-!
# Sizes on curves

* `Curve.order_lt`, `Curve.modulus_lt`: reduced numbers fit into the octets of a coordinate;
* `Weierstrass.lt_of_multiple`: the coordinates of a point are reduced;
* `Curve.parameters_of_find?`: the parameters of a curve that is known by its identifier;
* `EdDsa.length_publicKey`: the octets of a public key on an Edwards curve.
-/

namespace AcmeClient

namespace Curve

theorem order_lt (c : Curve) : c.parameters.n < 256 ^ c.width := by
  cases c <;> decide

theorem order_pos (c : Curve) : 0 < c.parameters.n := by
  cases c <;> decide

theorem modulus_lt (c : Curve) : c.parameters.p < 256 ^ c.width := by
  cases c <;> decide

theorem modulus_pos (c : Curve) : 0 < c.parameters.p := by
  cases c <;> decide

/-- A key that can be used is on the curve it is used with. -/
theorem parameters_of_find? {id : Octets} {e : Entry} {c : Curve} (h : find? id = some e)
    (hc : e.usable = some c) : e.parameters = c.parameters := by
  have all : ∀ p ∈ entries, ∀ c, p.2.usable = some c → p.2.parameters = c.parameters := by
    simp only [entries, List.forall_mem_cons]
    simp [parameters]
  obtain ⟨p, hp, rfl⟩ := Option.map_eq_some_iff.mp h
  exact all p (List.mem_of_find?_eq_some hp) c hc

end Curve

namespace Weierstrass

variable {c : Weierstrass} {k x y : Nat} {s : Point}

/-- The coordinates of a point are reduced. -/
theorem lt_of_multiple (hp : 0 < c.p) (h : c.multiple k s = some (x, y)) : x < c.p ∧ y < c.p := by
  rw [multiple, toPoint] at h
  split at h
  case isTrue => cases h
  case isFalse =>
    cases h
    exact ⟨Nat.mod_lt _ hp, Nat.mod_lt _ hp⟩

end Weierstrass

theorem Edwards.length_multiple (c : Edwards) (k : Nat) : (c.multiple k).length = c.width := by
  rw [multiple, octets, Octets.ofNatLittle, List.length_reverse, Octets.length_ofNatWidth]

theorem EdDsa.length_publicKey (c : EdCurve) (seed : Octets) :
    (publicKey c seed).length = c.width := by
  rw [publicKey, Edwards.length_multiple]
  cases c <;> rfl

end AcmeClient
