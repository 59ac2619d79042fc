import Mathlib.Data.List.Basic
import Mathlib.Tactic.SplitIfs
import AcmeClient.Json.Reader

/-!
# Integers in JSON

* `Digit.of_ascii?`, `Digit.natOf_toDigits`: what holds of all digits, and the number of some of
  them;
* `Json.Ends`: what may follow a value within a text;
* **`Json.readScalar_int`**, `Json.readNumber_long`: an integer is read back if it has not too many
  digits, and refused if it has.
-/

namespace AcmeClient

namespace Digit

theorem ascii?_digitChar : ∀ d < 10, ascii? (Nat.digitChar d) = some d := by
  decide

/-- What holds of ten characters holds of every digit. -/
theorem of_ascii? {P : Char → Prop} (all : ∀ d < 10, P (Char.ofNat (48 + d))) {c : Char}
    (hc : (ascii? c).isSome = true) : P c := by
  unfold ascii? at hc
  split_ifs at hc with h
  · have low : 48 ≤ c.toNat := h.1
    have high : c.toNat ≤ 57 := h.2
    have := all (c.toNat - 48) (by omega)
    rwa [show 48 + (c.toNat - 48) = c.toNat by omega, Char.ofNat_toNat] at this
  · cases hc

theorem number_concat (ds : List Nat) (d : Nat) : number (ds ++ [d]) = number ds * 10 + d := by
  rw [number, List.foldl_append]
  rfl

theorem natOf_toDigits (n : Nat) : natOf (Nat.toDigits 10 n) = n := by
  induction n using Nat.strongRecOn with
  | ind n ih =>
    unfold natOf at ih ⊢
    by_cases hn : n < 10
    · rw [Nat.toDigits_of_lt_base hn]
      simp [number, ascii?_digitChar n hn]
    · rw [Nat.toDigits_of_base_le (by decide) (by omega), List.map_append, List.map_singleton,
        number_concat, ih (n / 10) (by omega), ascii?_digitChar _ (Nat.mod_lt n (by decide)),
        Option.getD_some]
      omega

theorem isSome_of_mem_toDigits {n : Nat} {c : Char} (h : c ∈ Nat.toDigits 10 n) :
    (ascii? c).isSome = true := by
  have hc := Nat.isDigit_of_mem_toDigits (by decide) (by decide) h
  have bounds : '0' ≤ c ∧ c ≤ '9' := by
    simpa [Char.isDigit, Char.le_def] using hc
  rw [ascii?, if_pos bounds]
  rfl

theorem eq_zero_of_toDigits {n : Nat} {ds : List Char} (h : Nat.toDigits 10 n = '0' :: ds) :
    n = 0 ∧ ds = [] := by
  induction n using Nat.strongRecOn generalizing ds with
  | ind n ih =>
    by_cases hn : n < 10
    · rw [Nat.toDigits_of_lt_base hn] at h
      obtain ⟨hd, hds⟩ := List.cons.inj h
      exact ⟨Nat.digitChar_eq_zero.mp hd, hds.symm⟩
    · rw [Nat.toDigits_of_base_le (by decide) (by omega)] at h
      cases hd : Nat.toDigits 10 (n / 10) with
      | nil => exact absurd hd Nat.toDigits_ne_nil
      | cons c cs =>
        rw [hd] at h
        obtain ⟨rfl, -⟩ := List.cons.inj h
        have := (ih (n / 10) (by omega) hd).1
        omega

end Digit

namespace Json

/-- A value may be followed by this: by nothing, or by a comma or a closing bracket. -/
def Ends (r : List Char) : Prop :=
  ∀ c ∈ r.head?, c = ',' ∨ c = ']' ∨ c = '\x7d'

section Ends

variable {r : List Char}

theorem ends_nil : Ends [] := fun _ h => by
  cases h

theorem ends_cons {c : Char} (h : c = ',' ∨ c = ']' ∨ c = '\x7d') : Ends (c :: r) := fun _ hd => by
  obtain rfl := Option.some.inj hd
  exact h

theorem digits_append {ds : List Char} (hds : ∀ c ∈ ds, (Digit.ascii? c).isSome = true)
    (hr : Ends r) : digits (ds ++ r) = (ds, r) := by
  have stop : ∀ c ∈ r.head?, (Digit.ascii? c).isSome = false := by
    intro c hc
    rcases hr c hc with rfl | rfl | rfl <;> decide
  unfold digits
  rw [List.takeWhile_append_of_pos hds, List.dropWhile_append_of_pos hds]
  cases r with
  | nil => simp
  | cons c r =>
    have := stop c rfl
    simp [this]

theorem readFraction_of_ends (hr : Ends r) : readFraction r = ([], r) := by
  cases r with
  | nil => rfl
  | cons c r =>
    rcases hr c rfl with rfl | rfl | rfl <;> rfl

theorem readExponent_of_ends (hr : Ends r) : readExponent r = (none, r) := by
  cases r with
  | nil => rfl
  | cons c r =>
    rcases hr c rfl with rfl | rfl | rfl <;> rfl

theorem readNumber_toDigits {n : Nat} (negative : Bool)
    (hn : (Nat.toDigits 10 n).length ≤ digitLimit) (hr : Ends r) :
    readNumber negative (Nat.toDigits 10 n ++ r) =
      .ok (.int (if negative then -(n : Int) else n), r) := by
  have all := digits_append (fun _ => Digit.isSome_of_mem_toDigits (n := n)) hr
  unfold readNumber
  rw [all]
  dsimp only
  -- the digits are a single zero, or do not start with one
  split
  · rename_i ds h
    obtain ⟨rfl, rfl⟩ := Digit.eq_zero_of_toDigits h
    rw [show (['0'], (Nat.toDigits 10 0 ++ r).drop 1) = (Nat.toDigits 10 0, r) from rfl]
    rw [if_neg (by simp), readFraction_of_ends hr]
    dsimp only
    rw [readExponent_of_ends hr]
    dsimp only
    rw [if_pos ⟨rfl, rfl⟩, if_neg (by decide), Digit.natOf_toDigits]
  · rw [if_neg (by simp [Nat.toDigits_ne_nil]), readFraction_of_ends hr]
    dsimp only
    rw [readExponent_of_ends hr]
    dsimp only
    rw [if_pos ⟨rfl, rfl⟩, if_neg (by omega), Digit.natOf_toDigits]

theorem toDigits_eq_cons (n : Nat) :
    ∃ c cs, Nat.toDigits 10 n = c :: cs ∧ (Digit.ascii? c).isSome = true := by
  cases h : Nat.toDigits 10 n with
  | nil => exact absurd h Nat.toDigits_ne_nil
  | cons c cs =>
    refine ⟨c, cs, rfl, Digit.isSome_of_mem_toDigits (n := n) ?_⟩
    rw [h]
    exact List.mem_cons_self

theorem readScalar_of_digit {c : Char} {s : List Char} (hc : (Digit.ascii? c).isSome = true) :
    readScalar (c :: s) = readNumber false (c :: s) := by
  have ne : ∀ d, (Digit.ascii? d).isSome = false → c ≠ d := by
    rintro d hd rfl
    rw [hd] at hc
    cases hc
  rw [readScalar]
  all_goals
    intro _ h
    exact absurd (List.cons.inj h).1 (ne _ (by decide))

theorem readScalar_of_minus {c : Char} {s : List Char} (hc : (Digit.ascii? c).isSome = true) :
    readScalar ('-' :: c :: s) = readNumber true (c :: s) := by
  have hI : c ≠ 'I' := by
    rintro rfl
    exact absurd hc (by decide)
  rw [readScalar]
  exact fun _ h => hI (List.cons.inj h).1

theorem toList_toString (n : Int) : (toString n).toList =
    if n < 0 then '-' :: Nat.toDigits 10 n.natAbs else Nat.toDigits 10 n.natAbs := by
  cases n with
  | ofNat m =>
    rw [Int.ofNat_eq_natCast, if_neg (Int.not_lt.mpr (Int.natCast_nonneg m))]
    exact String.toList_ofList
  | negSucc m =>
    rw [if_pos (Int.negSucc_lt_zero m)]
    change ("-" ++ String.ofList (Nat.toDigits 10 (m + 1))).toList = '-' :: Nat.toDigits 10 (m + 1)
    rw [String.toList_append, String.toList_ofList, String.toList_ofList]
    rfl

/-- **An integer is read back if it has not too many digits.** -/
theorem readScalar_int {n : Int} (hn : (Nat.toDigits 10 n.natAbs).length ≤ digitLimit)
    (hr : Ends r) :
    readScalar ((toString n).toList ++ r) = .ok (.int n, r) := by
  obtain ⟨c, cs, hd, hc⟩ := toDigits_eq_cons n.natAbs
  have number := fun negative => readNumber_toDigits negative hn hr
  rw [toList_toString]
  rw [hd] at number ⊢
  split_ifs with h
  · rw [List.cons_append, List.cons_append, readScalar_of_minus hc, ← List.cons_append, number,
      if_pos rfl]
    congr 3
    omega
  · rw [List.cons_append, readScalar_of_digit hc, ← List.cons_append, number, if_neg (by decide)]
    congr 3
    omega

/-- **An integer with too many digits is refused.** -/
theorem readNumber_long {ds : List Char} (negative : Bool)
    (hds : ∀ c ∈ ds, (Digit.ascii? c).isSome = true) (h0 : ds.head? ≠ some '0')
    (long : digitLimit < ds.length) : readNumber negative ds = .error .longInteger := by
  have all : digits ds = (ds, []) := by
    have split := digits_append hds ends_nil
    rwa [List.append_nil] at split
  unfold readNumber
  rw [all]
  dsimp only
  split
  · exact absurd rfl h0
  · have some : ds ≠ [] := List.length_pos_iff.mp (by omega)
    rw [if_neg (by simp [some]), readFraction_of_ends ends_nil]
    dsimp only
    rw [readExponent_of_ends ends_nil]
    dsimp only
    rw [if_pos ⟨rfl, rfl⟩, if_pos long]

end Ends

end Json

end AcmeClient
