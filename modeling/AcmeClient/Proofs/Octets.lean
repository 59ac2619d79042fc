import Mathlib.Data.List.Basic
import Mathlib.Data.Nat.Log
import Mathlib.Tactic.Ring
import AcmeClient.Octets

/-!
# Big-endian numbers

* `Octets.toNat_append`, `Octets.toNat_lt`, `Octets.toNat_cons_lt_iff`, `Octets.eq_of_toNat_eq`: the
  digits of a number;
* **`Octets.toNat_ofNatWidth`**: a field holds a number up to multiples of its range;
* `Octets.lt_pow_widthOf`, `Octets.pow_le_of_one_lt_widthOf`: the width of the shortest form;
* **`Octets.toNat_ofNat`**, `Octets.head?_ofNat`, `Octets.eq_ofNat`: the shortest form stands for
  its number and does not start with zero, and it is the only one of this kind.
-/

namespace AcmeClient

namespace Octets

variable {b : Octets} {n m w : Nat}

/-! ## Digits -/

theorem foldl_eq (b : Octets) (n : Nat) :
    b.foldl (fun n x => n * 256 + x.toNat) n = n * 256 ^ b.length + toNat b := by
  induction b generalizing n with
  | nil => simp [toNat]
  | cons x b ih =>
    rw [toNat, List.foldl_cons, List.foldl_cons, ih, ih (0 * 256 + x.toNat), List.length_cons,
      pow_succ]
    ring

theorem toNat_append (a b : Octets) : toNat (a ++ b) = toNat a * 256 ^ b.length + toNat b := by
  rw [toNat, List.foldl_append, foldl_eq]
  rfl

theorem toNat_cons (x : UInt8) (b : Octets) :
    toNat (x :: b) = x.toNat * 256 ^ b.length + toNat b := by
  rw [← List.singleton_append, toNat_append, toNat, List.foldl_cons, Nat.zero_mul, Nat.zero_add]
  rfl

/-- The leading digit decides where the digits behind it are below its unit `p`. -/
theorem mul_add_lt_mul_iff {x k p r : Nat} (h : r < p) : x * p + r < k * p ↔ x < k := by
  constructor
  · exact fun less => Nat.lt_of_mul_lt_mul_right ((Nat.le_add_right _ _).trans_lt less)
  · intro less
    calc x * p + r < x * p + p := Nat.add_lt_add_left h _
      _ = (x + 1) * p := (Nat.succ_mul x p).symm
      _ ≤ k * p := Nat.mul_le_mul_right _ less

theorem toNat_lt (b : Octets) : toNat b < 256 ^ b.length := by
  induction b with
  | nil => exact Nat.one_pos
  | cons x b ih =>
    rw [toNat_cons, List.length_cons, pow_succ', mul_add_lt_mul_iff ih]
    exact x.toNat_lt

/-- The first octet decides how a number compares with the multiples of its unit. -/
theorem toNat_cons_lt_iff {x : UInt8} {k : Nat} :
    toNat (x :: b) < k * 256 ^ b.length ↔ x.toNat < k := by
  rw [toNat_cons, mul_add_lt_mul_iff (toNat_lt b)]

/-- Octets of the same length that stand for the same number are the same. -/
theorem eq_of_toNat_eq {a b : Octets} (length : a.length = b.length) (h : toNat a = toNat b) :
    a = b := by
  induction a generalizing b with
  | nil => rw [List.eq_nil_of_length_eq_zero length.symm]
  | cons x a ih =>
    cases b with
    | nil => cases length
    | cons y b =>
      have same : a.length = b.length := Nat.succ.inj length
      have first : x.toNat = y.toNat := eq_of_forall_gt_iff fun k => by
        rw [← toNat_cons_lt_iff (b := a), h, same, toNat_cons_lt_iff]
      rw [toNat_cons, toNat_cons, first, same] at h
      rw [UInt8.toNat_inj.mp first, ih same (Nat.add_left_cancel h)]

/-! ## Fields of fixed width -/

theorem length_ofNatWidth (w n : Nat) : (ofNatWidth w n).length = w := by
  induction w generalizing n with
  | zero => rfl
  | succ w ih => rw [ofNatWidth, List.length_append, ih, List.length_singleton]

/-- **A field holds a number up to multiples of its range.** -/
theorem toNat_ofNatWidth (w n : Nat) : toNat (ofNatWidth w n) = n % 256 ^ w := by
  induction w generalizing n with
  | zero => rw [pow_zero, Nat.mod_one, ofNatWidth]; rfl
  | succ w ih =>
    have last : toNat [UInt8.ofNat (n % 256)] = n % 256 := by
      rw [toNat_cons, List.length_nil, pow_zero, Nat.mul_one,
        UInt8.toNat_ofNat_of_lt' (Nat.mod_lt n (by decide))]
      rfl
    rw [ofNatWidth, toNat_append, ih, last, List.length_singleton, pow_one, pow_succ',
      Nat.mod_mul, Nat.mul_comm, Nat.add_comm]

/-! ## The shortest form -/

theorem widthOf_pos (n : Nat) : 0 < widthOf n :=
  Nat.succ_pos _

theorem pow_mul_eight (w : Nat) : 2 ^ (8 * w) = 256 ^ w := by
  rw [pow_mul]
  rfl

theorem lt_pow_widthOf (n : Nat) : n < 256 ^ widthOf n := by
  rw [← pow_mul_eight, widthOf]
  refine Nat.lt_log2_self.trans_le (Nat.pow_le_pow_right (by decide) ?_)
  omega

theorem pow_le_of_one_lt_widthOf (h : 1 < widthOf n) : 256 ^ (widthOf n - 1) ≤ n := by
  have nonzero : n ≠ 0 := by
    rintro rfl
    exact absurd h (by decide)
  rw [← pow_mul_eight]
  refine (Nat.pow_le_pow_right (by decide) ?_).trans (Nat.log2_self_le nonzero)
  rw [widthOf]
  omega

theorem widthOf_le (hw : 0 < w) (h : n < 256 ^ w) : widthOf n ≤ w := by
  by_contra hc
  have wide : 1 < widthOf n := by omega
  have le := pow_le_of_one_lt_widthOf wide
  have mono : 256 ^ w ≤ 256 ^ (widthOf n - 1) := Nat.pow_le_pow_right (by decide) (by omega)
  omega

theorem widthOf_mono (h : n ≤ m) : widthOf n ≤ widthOf m :=
  widthOf_le (widthOf_pos m) (h.trans_lt (lt_pow_widthOf m))

theorem length_ofNat (n : Nat) : (ofNat n).length = widthOf n :=
  length_ofNatWidth _ n

/-- **The shortest form of a number stands for it.** -/
theorem toNat_ofNat (n : Nat) : toNat (ofNat n) = n := by
  rw [ofNat, toNat_ofNatWidth, Nat.mod_eq_of_lt (lt_pow_widthOf n)]

/-- Octets that do not start with zero are the shortest form of their number. -/
theorem eq_ofNat {x : UInt8} (h : x ≠ 0) (b : Octets) : x :: b = ofNat (toNat (x :: b)) := by
  have first : 1 ≤ x.toNat := Nat.pos_of_ne_zero fun hx => h (UInt8.toNat_inj.mp hx)
  have low : 256 ^ b.length ≤ toNat (x :: b) := by
    rw [toNat_cons]
    exact (Nat.le_mul_of_pos_left _ first).trans (Nat.le_add_right _ _)
  have least : b.length + 1 ≤ widthOf (toNat (x :: b)) := by
    by_contra hc
    have less := (lt_pow_widthOf (toNat (x :: b))).trans_le
      (Nat.pow_le_pow_right (by decide) (show widthOf (toNat (x :: b)) ≤ b.length by omega))
    omega
  have most : widthOf (toNat (x :: b)) ≤ b.length + 1 :=
    widthOf_le (Nat.succ_pos _) (toNat_lt (x :: b))
  refine eq_of_toNat_eq ?_ (toNat_ofNat _).symm
  rw [length_ofNat, List.length_cons]
  omega

theorem head?_ofNat (h : n ≠ 0) : (ofNat n).head? ≠ some 0 := by
  intro hc
  obtain ⟨b, hb⟩ := List.head?_eq_some_iff.mp hc
  have length : b.length = widthOf n - 1 := by
    rw [← length_ofNat, hb, List.length_cons, Nat.add_sub_cancel]
  have value : toNat b = n := by
    have := toNat_ofNat n
    rw [hb, toNat_cons] at this
    simpa using this
  have less := toNat_lt b
  rw [value, length] at less
  by_cases wide : 1 < widthOf n
  · exact absurd less (Nat.not_lt.mpr (pow_le_of_one_lt_widthOf wide))
  · have one : widthOf n - 1 = 0 := by omega
    rw [one, pow_zero] at less
    omega

end Octets

end AcmeClient
