import Mathlib.Algebra.Order.Floor.Semifield
import Mathlib.Algebra.Order.Field.Power
import Mathlib.Data.Int.Log
import Mathlib.Data.Rat.Floor
import Mathlib.Tactic.FieldSimp
import Mathlib.Tactic.Linarith
import Mathlib.Tactic.NormNum
import Mathlib.Tactic.Positivity
import Mathlib.Tactic.Ring
import AcmeClient.Binary64

/-!
# Rounding

* `Binary64.nearestInt`: the nearest integer, halves to the even neighbour;
* `Binary64.spacing`, `Binary64.nearest`: the distance of the numbers of the format around a
  rational number, and the nearest of them;
* **`Binary64.nearest_mono`**: rounding keeps the order;
* `Binary64.nearest_of_grid`: a number of the format is its own nearest one;
* `Binary64.abs_nearest_sub_le`: rounding moves a number by at most half the distance;
* **`Binary64.is_ofRatio`**, **`Binary64.Is.mul`**: quotients and products are rounded to the
  nearest number of the format;
* `Binary64.value?`: the value of a finite number.
-/

namespace AcmeClient

namespace Binary64

/-! ## The nearest integer -/

/-- The nearest integer to a number that is not negative; halves go to the even neighbour. -/
def nearestInt (x : ℚ) : ℕ :=
  if x - ⌊x⌋₊ < 1 / 2 ∨ x - ⌊x⌋₊ = 1 / 2 ∧ ⌊x⌋₊ % 2 = 0 then ⌊x⌋₊ else ⌊x⌋₊ + 1

section NearestInt

variable {x y : ℚ}

theorem nearestInt_cases (x : ℚ) :
    (nearestInt x = ⌊x⌋₊ ∧ x - ⌊x⌋₊ ≤ 1 / 2) ∨ nearestInt x = ⌊x⌋₊ + 1 ∧ 1 / 2 ≤ x - ⌊x⌋₊ := by
  unfold nearestInt
  split_ifs with h
  · exact .inl ⟨rfl, h.elim le_of_lt fun h => le_of_eq h.1⟩
  · exact .inr ⟨rfl, not_lt.mp fun less => h (.inl less)⟩

theorem floor_bounds (hx : 0 ≤ x) : (⌊x⌋₊ : ℚ) ≤ x ∧ x < ⌊x⌋₊ + 1 :=
  ⟨Nat.floor_le hx, Nat.lt_floor_add_one x⟩

theorem abs_nearestInt_sub_le (hx : 0 ≤ x) : |(nearestInt x : ℚ) - x| ≤ 1 / 2 := by
  obtain ⟨low, high⟩ := floor_bounds hx
  rw [abs_le]
  rcases nearestInt_cases x with ⟨h, part⟩ | ⟨h, part⟩
  · rw [h]
    constructor <;> linarith
  · rw [h]
    push_cast
    constructor <;> linarith

theorem nearestInt_mono (h : x ≤ y) : nearestInt x ≤ nearestInt y := by
  have floors : ⌊x⌋₊ ≤ ⌊y⌋₊ := Nat.floor_mono h
  rcases nearestInt_cases x with ⟨hn, -⟩ | ⟨hn, up⟩
  · rcases nearestInt_cases y with ⟨hm, -⟩ | ⟨hm, -⟩ <;> omega
  · rcases nearestInt_cases y with ⟨hm, down⟩ | ⟨hm, -⟩
    · rcases Nat.lt_or_ge ⌊x⌋₊ ⌊y⌋₊ with less | same
      · omega
      · -- between the same integers both are the half
        have floor : ⌊x⌋₊ = ⌊y⌋₊ := Nat.le_antisymm floors same
        have equal : x = y := by
          rw [floor] at up
          linarith
        rw [equal]
    · omega

theorem nearestInt_of_near {k : ℕ} (hx : 0 ≤ x) (h : |x - k| < 1 / 2) : nearestInt x = k := by
  have near := abs_nearestInt_sub_le hx
  rw [abs_lt] at h
  rw [abs_le] at near
  have above : (nearestInt x : ℚ) < k + 1 := by linarith
  have below : (k : ℚ) < nearestInt x + 1 := by linarith
  have above : nearestInt x < k + 1 := by exact_mod_cast above
  have below : k < nearestInt x + 1 := by exact_mod_cast below
  omega

theorem nearestInt_natCast (k : ℕ) : nearestInt k = k :=
  nearestInt_of_near (Nat.cast_nonneg k) (by norm_num)

theorem nearestInt_zero : nearestInt 0 = 0 :=
  nearestInt_natCast 0

theorem nearestInt_le {k : ℕ} (h : x ≤ k) : nearestInt x ≤ k :=
  (nearestInt_mono h).trans_eq (nearestInt_natCast k)

theorem le_nearestInt {k : ℕ} (h : (k : ℚ) ≤ x) : k ≤ nearestInt x :=
  (nearestInt_natCast k).symm.trans_le (nearestInt_mono h)

theorem divNearest_eq (a : ℕ) {b : ℕ} (hb : 0 < b) : divNearest a b = nearestInt (a / b : ℚ) := by
  have hb' : (0 : ℚ) < b := by exact_mod_cast hb
  have floor : ⌊(a / b : ℚ)⌋₊ = a / b := Nat.floor_div_eq_div a b
  have parts : (a : ℚ) = b * (a / b : ℕ) + (a % b : ℕ) := by exact_mod_cast (Nat.div_add_mod a b).symm
  have part : (a / b : ℚ) - (a / b : ℕ) = (a % b : ℕ) / b := by
    rw [eq_div_iff hb'.ne', sub_mul, div_mul_cancel₀ _ hb'.ne']
    linarith
  have less : ((a % b : ℕ) / b : ℚ) < 1 / 2 ↔ 2 * (a % b) < b := by
    rw [div_lt_div_iff₀ hb' two_pos, one_mul, mul_comm]
    exact_mod_cast Iff.rfl
  have equal : ((a % b : ℕ) / b : ℚ) = 1 / 2 ↔ 2 * (a % b) = b := by
    rw [div_eq_div_iff hb'.ne' two_ne_zero, one_mul, mul_comm]
    exact_mod_cast Iff.rfl
  unfold divNearest nearestInt
  simp only [floor, part, less, equal]
  split_ifs <;> omega

end NearestInt

/-! ## The nearest number of the format -/

/-- The exponent of the distance between the numbers of the format around a positive number. -/
def spacing (x : ℚ) : ℤ :=
  max (Int.log 2 x - 52) (-1074)

/-- The nearest number of the format to a number that is not negative. -/
def nearest (x : ℚ) : ℚ :=
  nearestInt (x * 2 ^ (-spacing x)) * 2 ^ spacing x

section Nearest

variable {x y : ℚ}

theorem two_zpow_pos (k : ℤ) : (0 : ℚ) < 2 ^ k :=
  zpow_pos two_pos k

theorem two_zpow_add (a b : ℤ) : (2 : ℚ) ^ (a + b) = 2 ^ a * 2 ^ b :=
  zpow_add₀ two_ne_zero a b

theorem scaled_mul (x : ℚ) (k : ℤ) : x * 2 ^ (-k) * 2 ^ k = x := by
  rw [mul_assoc, ← two_zpow_add, neg_add_cancel, zpow_zero, mul_one]

theorem scaled_nonneg (hx : 0 ≤ x) (k : ℤ) : 0 ≤ x * 2 ^ k :=
  mul_nonneg hx (two_zpow_pos k).le

theorem scaled_le_iff {k : ℤ} : x * 2 ^ (-k) ≤ y ↔ x ≤ y * 2 ^ k := by
  rw [zpow_neg, ← div_eq_mul_inv, div_le_iff₀ (two_zpow_pos k)]

theorem le_scaled_iff {k : ℤ} : y ≤ x * 2 ^ (-k) ↔ y * 2 ^ k ≤ x := by
  rw [zpow_neg, ← div_eq_mul_inv, le_div_iff₀ (two_zpow_pos k)]

theorem nearest_zero : nearest 0 = 0 := by
  rw [nearest, zero_mul, nearestInt_zero, Nat.cast_zero, zero_mul]

theorem nearest_nonneg (x : ℚ) : 0 ≤ nearest x :=
  scaled_nonneg (Nat.cast_nonneg _) _

theorem neg_le_spacing (x : ℚ) : -1074 ≤ spacing x :=
  le_max_right _ _

theorem spacing_mono (hx : 0 < x) (h : x ≤ y) : spacing x ≤ spacing y :=
  max_le_max (Int.sub_le_sub_right (Int.log_mono_right hx h) 52) le_rfl

/-- Fifty-three bits reach beyond the number. -/
theorem le_two_zpow_spacing (x : ℚ) : x ≤ 2 ^ (spacing x + 53) := by
  have above : x < 2 ^ (Int.log 2 x + 1) := Int.lt_zpow_succ_log_self one_lt_two x
  refine above.le.trans (zpow_le_zpow_right₀ one_le_two ?_)
  have := le_max_left (Int.log 2 x - 52) (-1074)
  unfold spacing
  omega

/-- Above the least spacing all bits are in use. -/
theorem two_zpow_spacing_le (hx : 0 < x) (h : -1074 < spacing x) : 2 ^ (spacing x + 52) ≤ x := by
  have exact : spacing x = Int.log 2 x - 52 := by
    unfold spacing at h ⊢
    omega
  rw [exact, sub_add_cancel]
  exact Int.zpow_log_le_self one_lt_two hx

/-- The mantissa has at most fifty-three bits, or is the next power of two. -/
theorem nearestInt_scaled_le (x : ℚ) : nearestInt (x * 2 ^ (-spacing x)) ≤ 2 ^ 53 := by
  refine nearestInt_le (scaled_le_iff.mpr ?_)
  have bits : ((2 ^ 53 : ℕ) : ℚ) = 2 ^ (53 : ℤ) := by norm_num
  rw [bits, ← two_zpow_add, add_comm]
  exact le_two_zpow_spacing x

/-- **Rounding keeps the order.** -/
theorem nearest_mono (hx : 0 ≤ x) (h : x ≤ y) : nearest x ≤ nearest y := by
  rcases hx.eq_or_lt with rfl | pos
  · rw [nearest_zero]
    exact nearest_nonneg y
  rcases (spacing_mono pos h).eq_or_lt with same | wider
  · have scaled : x * 2 ^ (-spacing y) ≤ y * 2 ^ (-spacing y) :=
      mul_le_mul_of_nonneg_right h (two_zpow_pos _).le
    have integers := nearestInt_mono scaled
    unfold nearest
    rw [same]
    exact mul_le_mul_of_nonneg_right (by exact_mod_cast integers) (two_zpow_pos _).le
  · -- a power of two lies between the two numbers
    have bits (k : ℕ) : ((2 ^ k : ℕ) : ℚ) = 2 ^ (k : ℤ) := by norm_num
    have below : nearest x ≤ 2 ^ (spacing x + 53) := by
      rw [add_comm, two_zpow_add]
      refine mul_le_mul_of_nonneg_right ?_ (two_zpow_pos _).le
      exact (Nat.cast_le.mpr (nearestInt_scaled_le x)).trans_eq (bits 53)
    have above : 2 ^ (spacing y + 52) ≤ nearest y := by
      have full := two_zpow_spacing_le (pos.trans_le h) ((neg_le_spacing x).trans_lt wider)
      rw [add_comm, two_zpow_add] at full ⊢
      refine mul_le_mul_of_nonneg_right ?_ (two_zpow_pos _).le
      have integer := le_nearestInt (k := 2 ^ 52) ((bits 52).trans_le (le_scaled_iff.mpr full))
      exact (bits 52).symm.trans_le (Nat.cast_le.mpr integer)
    calc nearest x ≤ 2 ^ (spacing x + 53) := below
      _ ≤ 2 ^ (spacing y + 52) := zpow_le_zpow_right₀ one_le_two (by omega)
      _ ≤ nearest y := above

theorem nearest_of_multiple {k : ℕ} {e : ℤ} (hx : x = k * 2 ^ e) (h : spacing x ≤ e) :
    nearest x = x := by
  obtain ⟨j, rfl⟩ := Int.le.dest h
  have integer : x * 2 ^ (-spacing x) = (k * 2 ^ j : ℕ) := by
    calc x * 2 ^ (-spacing x) = k * 2 ^ (spacing x + j) * 2 ^ (-spacing x) := by rw [← hx]
      _ = k * 2 ^ j := by
        rw [mul_assoc, ← two_zpow_add, add_neg_cancel_comm, zpow_natCast]
      _ = (k * 2 ^ j : ℕ) := by push_cast; rfl
  rw [nearest, integer, nearestInt_natCast, ← integer, scaled_mul]

theorem spacing_le {k : ℤ} (hx : 0 < x) (h : x < 2 ^ k) (hk : -1021 ≤ k) : spacing x ≤ k - 53 := by
  have log : Int.log 2 x < k := (Int.lt_zpow_iff_log_lt one_lt_two hx).mp h
  unfold spacing
  omega

/-- A number of the format is its own nearest one. -/
theorem nearest_of_grid {m : ℕ} {e : ℤ} (hm : m ≤ 2 ^ 53) (he : -1074 ≤ e)
    (hx : x = m * 2 ^ e) : nearest x = x := by
  have inside {m : ℕ} {e : ℤ} (hm : m < 2 ^ 53) (he : -1074 ≤ e) (hx : x = m * 2 ^ e) :
      nearest x = x := by
    rcases (scaled_nonneg (Nat.cast_nonneg m) e).eq_or_lt with zero | pos
    · rw [hx, ← zero, nearest_zero]
    · rw [← hx] at pos
      have below : x < 2 ^ (53 + e) := by
        rw [hx, two_zpow_add]
        exact mul_lt_mul_of_pos_right (by exact_mod_cast hm) (two_zpow_pos e)
      have distance := spacing_le pos below (by omega)
      exact nearest_of_multiple hx (by omega)
  rcases hm.eq_or_lt with rfl | hm
  · -- the next power of two, with a shorter mantissa
    refine inside (m := 2 ^ 52) (e := 1 + e) (by norm_num) (by omega) ?_
    rw [hx, two_zpow_add]
    push_cast
    ring
  · exact inside hm he hx

theorem nearest_natCast {n : ℕ} (h : n ≤ 2 ^ 53) : nearest n = n :=
  nearest_of_grid (e := 0) h (by decide) (by rw [zpow_zero, mul_one])

theorem nearest_nearest (x : ℚ) : nearest (nearest x) = nearest x :=
  nearest_of_grid (nearestInt_scaled_le x) (neg_le_spacing x) rfl

/-- Rounding moves a number by at most half the distance. -/
theorem abs_nearest_sub_le {k : ℤ} (hx : 0 ≤ x) (h : x < 2 ^ k) (hk : -1021 ≤ k) :
    |nearest x - x| ≤ 2 ^ (k - 54) := by
  rcases hx.eq_or_lt with rfl | pos
  · rw [nearest_zero, sub_self, abs_zero]
    exact (two_zpow_pos _).le
  · have distance := spacing_le pos h hk
    have moved : nearest x - x =
        (nearestInt (x * 2 ^ (-spacing x)) - x * 2 ^ (-spacing x)) * 2 ^ spacing x := by
      rw [sub_mul, scaled_mul]
      rfl
    calc |nearest x - x|
        = |(nearestInt (x * 2 ^ (-spacing x)) : ℚ) - x * 2 ^ (-spacing x)| * 2 ^ spacing x := by
          rw [moved, abs_mul, abs_of_pos (two_zpow_pos _)]
      _ ≤ 1 / 2 * 2 ^ (k - 53) := by
          refine mul_le_mul (abs_nearestInt_sub_le (scaled_nonneg hx _))
            (zpow_le_zpow_right₀ one_le_two distance) (two_zpow_pos _).le (by norm_num)
      _ = 2 ^ (k - 54) := by
          have half : k - 53 = 1 + (k - 54) := by omega
          rw [half, two_zpow_add]
          ring

end Nearest

/-! ## Quotients and products -/

theorem scale_of_nonneg {s : ℤ} (h : 0 ≤ s) (n d : ℕ) : scale n d s = (n <<< s.toNat, d) :=
  if_pos h

theorem scale_of_neg {s : ℤ} (h : s < 0) (n d : ℕ) : scale n d s = (n, d <<< (-s).toNat) :=
  if_neg (not_le.mpr h)

theorem scale_eq (n : ℕ) {d : ℕ} (hd : 0 < d) (s : ℤ) :
    0 < (scale n d s).2 ∧ ((scale n d s).1 / (scale n d s).2 : ℚ) = n / d * 2 ^ s := by
  rcases lt_or_ge s 0 with neg | nonneg
  · obtain ⟨j, hj⟩ := Int.eq_ofNat_of_zero_le (by omega : 0 ≤ -s)
    obtain rfl : s = -j := by omega
    rw [scale_of_neg neg, neg_neg, Int.toNat_natCast, Nat.shiftLeft_eq]
    refine ⟨Nat.mul_pos hd (Nat.two_pow_pos j), ?_⟩
    rw [zpow_neg, zpow_natCast]
    push_cast
    rw [div_mul_eq_div_div, div_eq_mul_inv]
  · obtain ⟨j, rfl⟩ := Int.eq_ofNat_of_zero_le nonneg
    rw [scale_of_nonneg nonneg, Int.toNat_natCast, Nat.shiftLeft_eq]
    refine ⟨hd, ?_⟩
    rw [zpow_natCast]
    push_cast
    ring

theorem two_zpow_log2_bounds {n : ℕ} (hn : n ≠ 0) :
    (2 : ℚ) ^ (n.log2 : ℤ) ≤ n ∧ (n : ℚ) < 2 ^ ((n.log2 : ℤ) + 1) := by
  constructor
  · rw [zpow_natCast]
    exact_mod_cast Nat.log2_self_le hn
  · have above : n < 2 ^ (n.log2 + 1) := Nat.lt_log2_self
    exact_mod_cast above

theorem quotient_bounds {n d : ℕ} (hn : n ≠ 0) (hd : 0 < d) :
    (2 : ℚ) ^ ((n.log2 : ℤ) - d.log2 - 1) < n / d ∧
      (n / d : ℚ) < 2 ^ ((n.log2 : ℤ) - d.log2 + 1) := by
  have hd' : (0 : ℚ) < d := by exact_mod_cast hd
  obtain ⟨n_low, n_high⟩ := two_zpow_log2_bounds hn
  obtain ⟨d_low, d_high⟩ := two_zpow_log2_bounds hd.ne'
  rw [lt_div_iff₀ hd', div_lt_iff₀ hd']
  constructor
  · calc (2 : ℚ) ^ ((n.log2 : ℤ) - d.log2 - 1) * d
        < 2 ^ ((n.log2 : ℤ) - d.log2 - 1) * 2 ^ ((d.log2 : ℤ) + 1) :=
          mul_lt_mul_of_pos_left d_high (two_zpow_pos _)
      _ = 2 ^ (n.log2 : ℤ) := by
          rw [← two_zpow_add]
          congr 1
          omega
      _ ≤ n := n_low
  · calc (n : ℚ) < 2 ^ ((n.log2 : ℤ) + 1) := n_high
      _ = 2 ^ ((n.log2 : ℤ) - d.log2 + 1) * 2 ^ (d.log2 : ℤ) := by
          rw [← two_zpow_add]
          congr 1
          omega
      _ ≤ 2 ^ ((n.log2 : ℤ) - d.log2 + 1) * d :=
          mul_le_mul_of_nonneg_left d_low (two_zpow_pos _).le

theorem log_eq_of_bounds {x : ℚ} {t : ℤ} (low : 2 ^ t ≤ x) (high : x < 2 ^ (t + 1)) :
    Int.log 2 x = t := by
  have pos : 0 < x := (two_zpow_pos t).trans_le low
  have below : t ≤ Int.log 2 x := (Int.zpow_le_iff_le_log one_lt_two pos).mp low
  have above : Int.log 2 x < t + 1 := (Int.lt_zpow_iff_log_lt one_lt_two pos).mp high
  omega

theorem log2Ratio_eq {n d : ℕ} (hn : n ≠ 0) (hd : 0 < d) :
    log2Ratio n d = Int.log 2 (n / d : ℚ) := by
  obtain ⟨low, high⟩ := quotient_bounds hn hd
  unfold log2Ratio
  generalize (n.log2 : ℤ) - d.log2 = l at low high ⊢
  obtain ⟨pos, scaled⟩ := scale_eq n hd (-l)
  have pos' : (0 : ℚ) < (scale n d (-l)).2 := by exact_mod_cast pos
  have less : (scale n d (-l)).1 < (scale n d (-l)).2 ↔ (n / d : ℚ) < 2 ^ l := by
    have one : (n / d : ℚ) * 2 ^ (-l) < 1 ↔ (n / d : ℚ) < 2 ^ l := by
      rw [← not_le, ← not_le, le_scaled_iff, one_mul]
    rw [← one, ← scaled, div_lt_one pos']
    exact_mod_cast Iff.rfl
  dsimp only
  split_ifs with h
  · exact (log_eq_of_bounds low.le (by simpa using less.mp h)).symm
  · exact (log_eq_of_bounds (not_lt.mp (mt less.mpr h)) high).symm

/-- The number is `± p`. -/
def Is (x : Binary64) (negative : Bool) (p : ℚ) : Prop :=
  ∃ m e, x = finite negative m e ∧ (m : ℚ) * 2 ^ e = p

/-- **A quotient is rounded to the nearest number of the format**, unless it is too great. -/
theorem is_ofRatio (negative : Bool) (n : ℕ) {d : ℕ} (hd : 0 < d)
    (bounded : (n / d : ℚ) < 2 ^ (1023 : ℤ)) :
    (ofRatio negative n d).Is negative (nearest (n / d)) := by
  unfold ofRatio
  split_ifs with zero
  · refine ⟨0, -1074, rfl, ?_⟩
    rw [zero, Nat.cast_zero, zero_mul, zero_div, nearest_zero]
  · have hn : (0 : ℚ) < n / d := by positivity
    have exponent : max (log2Ratio n d - 52) (-1074) = spacing (n / d) := by
      rw [log2Ratio_eq zero hd]
      rfl
    have inside := spacing_le hn bounded (by decide)
    obtain ⟨pos, scaled⟩ := scale_eq n hd (-spacing (n / d))
    dsimp only
    rw [exponent, divNearest_eq _ pos, scaled]
    by_cases carry : nearestInt (n / d * 2 ^ (-spacing (n / d))) = 0x20000000000000
    · rw [if_pos carry, if_neg (by omega)]
      refine ⟨_, _, rfl, ?_⟩
      rw [nearest, carry, add_comm, two_zpow_add]
      push_cast
      ring
    · rw [if_neg carry, if_neg (by omega)]
      exact ⟨_, _, rfl, rfl⟩

theorem ratio_eq (m : ℕ) (e : ℤ) :
    0 < (ratio m e).2 ∧ ((ratio m e).1 / (ratio m e).2 : ℚ) = m * 2 ^ e := by
  obtain ⟨pos, value⟩ := scale_eq m one_pos e
  rw [Nat.cast_one, div_one] at value
  exact ⟨pos, value⟩

/-- **A product is rounded to the nearest number of the format**, unless it is too great. -/
theorem Is.mul {x y : Binary64} {s t : Bool} {p q : ℚ} (hx : x.Is s p) (hy : y.Is t q)
    (bounded : p * q < 2 ^ (1023 : ℤ)) : (x.mul y).Is (s != t) (nearest (p * q)) := by
  obtain ⟨m, e, rfl, rfl⟩ := hx
  obtain ⟨n, f, rfl, rfl⟩ := hy
  obtain ⟨pos, value⟩ := ratio_eq (m * n) (e + f)
  have product : ((ratio (m * n) (e + f)).1 / (ratio (m * n) (e + f)).2 : ℚ) =
      m * 2 ^ e * (n * 2 ^ f) := by
    rw [value, two_zpow_add]
    push_cast
    ring
  rw [← product] at bounded ⊢
  exact is_ofRatio (s != t) _ pos bounded

theorem lt_two_zpow {x : ℚ} (h : x ≤ 2 ^ 53) : x < 2 ^ (1023 : ℤ) := by
  rw [← zpow_natCast] at h
  exact h.trans_lt (zpow_lt_zpow_right₀ one_lt_two (by decide))

theorem is_ofInt {n : ℕ} (h : n ≤ 2 ^ 53) : (ofInt n).Is false n := by
  have whole : (n / (1 : ℕ) : ℚ) = n := by rw [Nat.cast_one, div_one]
  have bounded : (n / (1 : ℕ) : ℚ) < 2 ^ (1023 : ℤ) := by
    rw [whole]
    exact lt_two_zpow (by exact_mod_cast h)
  have rounded := is_ofRatio false n one_pos bounded
  rw [whole, nearest_natCast h] at rounded
  have positive : ¬ (n : ℤ) < 0 := not_lt.mpr (Int.natCast_nonneg n)
  rwa [ofInt, decide_eq_false positive]

/-! ## Values -/

/-- The value of a finite number. -/
def value? : Binary64 → Option ℚ
  | finite negative m e => some (if negative then -(m * 2 ^ e) else m * 2 ^ e)
  | _ => none

/-- A number whose value is not negative has a positive sign, unless it is zero. -/
theorem is_of_value? {x : Binary64} {p : ℚ} (h : x.value? = some p) (hp : 0 ≤ p) :
    ∃ negative, x.Is negative p ∧ (negative = true → p = 0) := by
  cases x with
  | finite negative m e =>
    cases negative with
    | false => exact ⟨false, ⟨m, e, rfl, Option.some.inj h⟩, nofun⟩
    | true =>
      have value : -(m * 2 ^ e : ℚ) = p := Option.some.inj h
      have zero : p = 0 := by
        have := scaled_nonneg (Nat.cast_nonneg (α := ℚ) m) e
        linarith
      exact ⟨true, ⟨m, e, rfl, by linarith⟩, fun _ => zero⟩
  | infinity negative => cases h
  | nan => cases h

end Binary64

end AcmeClient
