import AcmeClient.Key.Reader
import AcmeClient.Proofs.Action
import AcmeClient.Proofs.Curve

/-!
# Keys that are read

* `PrivateKey.Usable`: the keys that signatures are made with and that have a public key;
* `PrivateKey.usable_of_readRsa`, `PrivateKey.usable_of_readPoint`,
  `PrivateKey.usable_of_readGeneral`: the forms of keys;
* **`PrivateKey.usable_of_ofPem`**: every key that is read is one of them, or of a foreign kind.
-/

namespace AcmeClient

namespace PrivateKey

open AcmeClient.Action (except_bind_eq_ok_iff)

/-- Keys that signatures are made with and that have a public key. -/
inductive Usable : PrivateKey → Prop
  | rsa {k : RsaKey} (modulus : 0 < k.modulus) (exponent : 0 < k.publicExponent) : Usable (.rsa k)
  | point {c : Curve} {d x y : Nat}
      (h : c.parameters.multiple d c.parameters.generator = some (x, y)) : Usable (.point c d)
  | edwards (c : EdCurve) (seed : Octets) : Usable (.edwards c seed)

variable {b : Octets} {k : PrivateKey}

/-! ## The forms of keys -/

theorem pos_of_isPrime {n : Nat} (h : Modular.isPrime n = true) : 0 < n := by
  rw [Modular.isPrime] at h
  split at h
  · cases h
  · omega

theorem usable_of_isConsistent {k : RsaKey} (h : k.isConsistent = true) : (rsa k).Usable := by
  simp only [RsaKey.isConsistent, Bool.and_eq_true, beq_iff_eq, and_assoc] at h
  obtain ⟨odd, -, -, -, product, -, -, -, -, -, first, second⟩ := h
  refine .rsa ?_ (Nat.pos_of_ne_zero fun zero => ?_)
  · rw [product]
    exact Nat.mul_pos (pos_of_isPrime first) (pos_of_isPrime second)
  · rw [zero] at odd
    cases odd

theorem usable_of_readRsa (h : readRsa b = .ok k) : k.Usable := by
  obtain ⟨r, -, h⟩ := except_bind_eq_ok_iff.mp h
  split at h
  case isTrue consistent =>
    cases h
    exact usable_of_isConsistent consistent
  case isFalse => cases h

theorem usable_of_checkPoint {e : Curve.Entry} {p : PointKey}
    (he : ∀ c, e.usable = some c → e.parameters = c.parameters) (h : checkPoint e p = .ok k) :
    k = .foreign ∨ k.Usable := by
  rw [checkPoint] at h
  dsimp only at h
  split at h
  case isTrue => cases h
  case isFalse =>
    split at h
    case h_1 => cases h
    case h_2 q hq =>
      split_ifs at h
      cases hc : e.usable with
      | none =>
        rw [hc] at h
        cases h
        exact .inl rfl
      | some c =>
        rw [hc] at h
        cases h
        rw [he c hc] at hq
        exact .inr (.point hq)

theorem find?_of_curveEntry {name : Option Octets} {e : Curve.Entry} (h : curveEntry name = .ok e) :
    ∃ id, Curve.find? id = some e := by
  cases name with
  | none => cases h
  | some id =>
    rw [curveEntry] at h
    split at h
    case h_1 e' found =>
      cases h
      exact ⟨id, found⟩
    case h_2 => cases h

theorem usable_of_readPoint {outer : Option (Octets × Option Octets)}
    (h : readPoint outer b = .ok k) : k = .foreign ∨ k.Usable := by
  obtain ⟨p, -, h⟩ := except_bind_eq_ok_iff.mp h
  -- whichever description of the curve is taken, the key is checked on this curve
  have checked {name : Option Octets} (h : (curveEntry name >>= fun e => checkPoint e p) = .ok k) :
      k = .foreign ∨ k.Usable := by
    obtain ⟨e, he, h⟩ := except_bind_eq_ok_iff.mp h
    obtain ⟨id, found⟩ := find?_of_curveEntry he
    exact usable_of_checkPoint (fun _ => Curve.parameters_of_find? found) h
  dsimp only at h
  split at h
  · split_ifs at h
    · exact checked h
    · cases h
  · exact checked h
  · exact checked h
  · cases h

theorem usable_of_readGeneral (h : readGeneral b = .ok k) : k = .foreign ∨ k.Usable := by
  obtain ⟨info, -, h⟩ := except_bind_eq_ok_iff.mp h
  dsimp only at h
  split_ifs at h
  case pos => exact .inr (usable_of_readRsa h)
  case pos =>
    obtain ⟨curve, -, h⟩ := except_bind_eq_ok_iff.mp h
    exact usable_of_readPoint h
  case pos =>
    obtain ⟨seed, -, h⟩ := except_bind_eq_ok_iff.mp h
    cases h
    exact .inr (.edwards _ _)
  case pos =>
    obtain ⟨seed, -, h⟩ := except_bind_eq_ok_iff.mp h
    cases h
    exact .inr (.edwards _ _)
  -- keys for agreements and for signatures that are not made
  all_goals
    obtain ⟨-, -, h⟩ := except_bind_eq_ok_iff.mp h
    cases h
    exact .inl rfl

/-! ## Texts -/

theorem usable_of_ofBlock {p : Pem.Block} (h : ofBlock p = .ok k) : k = .foreign ∨ k.Usable := by
  rw [ofBlock] at h
  split at h
  · cases h
  · split_ifs at h
    · exact usable_of_readGeneral h
    · exact .inr (usable_of_readRsa h)
    · exact usable_of_readPoint h
    · obtain ⟨-, -, h⟩ := except_bind_eq_ok_iff.mp h
      cases h
      exact .inl rfl
    · obtain ⟨-, -, h⟩ := except_bind_eq_ok_iff.mp h
      cases h

/-- **A key that is read can be used, unless it is of a foreign kind.** -/
theorem usable_of_ofPem {s : List Char} (h : ofPem s = .ok k) : k = .foreign ∨ k.Usable := by
  rw [ofPem] at h
  split at h
  case h_1 => cases h
  case h_2 p _ =>
    cases hp : ofBlock p with
    | error e =>
      rw [hp] at h
      cases h
    | ok k' =>
      rw [hp] at h
      cases h
      exact usable_of_ofBlock hp

end PrivateKey

end AcmeClient
