import AcmeClient.Der
import AcmeClient.Proofs.Octets

/-!
# The distinguished encoding

What the distinguished encoding demands, apart from how it is written here. A length takes at most
126 octets besides its first one, so that there is none of `256 ^ 126` or more.

* `Der.IsLength`, `Der.IsElement`: lengths with the fewest octets, and elements with such a length;
* **`Der.isElement_encode`**, `Der.eq_encode`: what is written is such an element, and the only one;
* `Der.length_encode_lt`: longer contents have longer encodings;
* `Der.split_of_readElement?`: where an element that is read stands;
* **`Der.isMinimal_encodeInteger`**, **`Der.signed_encodeInteger`**, **`Der.eq_encodeInteger`**:
  integers are written in the shortest two's complement form, and there is only one.
-/

namespace AcmeClient

namespace Der

variable {n m : Nat}

/-! ## Lengths -/

/-- The octets of a length: one octet below 128, or the count of the digits of the length, of which
the first one is not zero. -/
inductive IsLength (n : Nat) : Octets → Prop
  | short (h : n < 128) : IsLength n [UInt8.ofNat n]
  | long (digits : Octets) (h : 128 ≤ n) (count : digits.length ≤ 126)
      (first : digits.head? ≠ some 0) (value : digits.toNat = n) :
      IsLength n (UInt8.ofNat (128 + digits.length) :: digits)

/-- All octets of the element with a tag and a content. -/
def IsElement (tag : UInt8) (content b : Octets) : Prop :=
  ∃ l, IsLength content.length l ∧ b = tag :: l ++ content

theorem isLength_encodeLength (h : n < 256 ^ 126) : IsLength n (encodeLength n) := by
  rw [encodeLength]
  split
  case isTrue small => exact .short small
  case isFalse large =>
    have count : (Octets.ofNat n).length ≤ 126 := by
      rw [Octets.length_ofNat]
      exact Octets.widthOf_le (by decide) h
    have form := IsLength.long (Octets.ofNat n) (Nat.not_lt.mp large) count
      (Octets.head?_ofNat (by omega)) (Octets.toNat_ofNat n)
    rwa [Octets.length_ofNat] at form

/-- **What is written is an element.** -/
theorem isElement_encode (tag : UInt8) {content : Octets} (h : content.length < 256 ^ 126) :
    IsElement tag content (encode tag content) :=
  ⟨_, isLength_encodeLength h, rfl⟩

theorem eq_encodeLength {l : Octets} (h : IsLength n l) : l = encodeLength n := by
  cases h with
  | short small => rw [encodeLength, if_pos small]
  | long digits large count first value =>
    cases digits with
    | nil =>
      rw [Octets.toNat, List.foldl_nil] at value
      omega
    | cons x digits =>
      have shortest := Octets.eq_ofNat (fun hx => first (congrArg some hx)) digits
      rw [value] at shortest
      rw [encodeLength, if_neg (Nat.not_lt.mpr large), shortest, Octets.length_ofNat]

theorem eq_encode {tag : UInt8} {content b : Octets} (h : IsElement tag content b) :
    b = encode tag content := by
  obtain ⟨l, length, rfl⟩ := h
  rw [eq_encodeLength length, encode]

theorem toNat_mark (h : Octets.widthOf n ≤ 126) :
    (UInt8.ofNat (128 + Octets.widthOf n)).toNat = 128 + Octets.widthOf n := by
  refine UInt8.toNat_ofNat_of_lt' ?_
  have : UInt8.size = 256 := rfl
  omega

theorem length_encodeLength (n : Nat) :
    (encodeLength n).length = if n < 128 then 1 else 1 + Octets.widthOf n := by
  rw [encodeLength]
  split
  · rfl
  · rw [List.length_cons, Octets.length_ofNat, Nat.add_comm]

theorem length_encodeLength_mono (h : n ≤ m) :
    (encodeLength n).length ≤ (encodeLength m).length := by
  have widths := Octets.widthOf_mono h
  rw [length_encodeLength, length_encodeLength]
  split <;> split <;> omega

theorem length_encode (tag : UInt8) (content : Octets) : (encode tag content).length =
    1 + (encodeLength content.length).length + content.length := by
  rw [encode, List.length_append, List.length_cons]
  omega

theorem length_content_lt (tag : UInt8) (content : Octets) :
    content.length < (encode tag content).length := by
  rw [length_encode]
  omega

/-- Longer contents have longer encodings. -/
theorem length_encode_lt {s t : UInt8} {a b : Octets} (h : a.length < b.length) :
    (encode s a).length < (encode t b).length := by
  have lengths := length_encodeLength_mono h.le
  rw [length_encode, length_encode]
  omega

theorem length_eq_of_length_encode {s t : UInt8} {a b : Octets}
    (h : (encode s a).length = (encode t b).length) : a.length = b.length := by
  rcases Nat.lt_trichotomy a.length b.length with less | same | more
  · exact absurd h (length_encode_lt less).ne
  · exact same
  · exact absurd h (length_encode_lt more).ne'

theorem encode_inj {s t : UInt8} {a b : Octets} (h : encode s a = encode t b) : a = b := by
  have same := length_eq_of_length_encode (congrArg List.length h)
  rw [encode, encode, same] at h
  exact List.append_cancel_left (List.cons.inj h).2

/-! ## Reading elements -/

section Reading

variable {b c r : Octets} {t : Tag} {e : Element}

theorem suffix_of_readDigits? {acc k : Nat} (h : readDigits? n acc b = some (k, r)) : r <:+ b := by
  induction n generalizing acc b with
  | zero => cases h
  | succ n ih =>
    cases b with
    | nil => cases h
    | cons x b =>
      rw [readDigits?] at h
      split at h
      · cases h
        exact List.suffix_cons x _
      · exact (ih h).trans (List.suffix_cons x b)

theorem suffix_of_readTag? (h : readTag? b = some (t, r)) : r <:+ b := by
  cases b with
  | nil => cases h
  | cons x b =>
    rw [readTag?] at h
    dsimp only at h
    split at h
    · cases h
      exact List.suffix_cons x _
    · cases hn : readNumber? b with
      | none =>
        rw [hn] at h
        cases h
      | some p =>
        rw [hn] at h
        dsimp only at h
        split at h
        · cases h
        · cases h
          cases b with
          | nil => cases hn
          | cons y b =>
            rw [readNumber?] at hn
            split at hn
            · cases hn
            · exact (suffix_of_readDigits? hn).trans (List.suffix_cons x _)

theorem suffix_of_readLength? (h : readLength? b = some (n, r)) : r <:+ b := by
  cases b with
  | nil => cases h
  | cons x b =>
    rw [readLength?] at h
    dsimp only at h
    split at h
    · cases h
      exact List.suffix_cons x _
    · split at h
      · cases h
      · split at h
        · cases h
        · obtain ⟨-, rfl⟩ := Prod.mk.inj (Option.some.inj h)
          exact (List.drop_suffix _ b).trans (List.suffix_cons x b)

theorem cases_of_readElement? (h : readElement? b = some (e, r)) :
    ∃ c n d, readTag? b = some (e.tag, c) ∧ readLength? c = some (n, d) ∧ n ≤ d.length ∧
      e.content = d.take n ∧ e.octets = b.take (b.length - (d.length - n)) ∧ r = d.drop n := by
  rw [readElement?, Option.bind_eq_bind, Option.bind_eq_some_iff] at h
  obtain ⟨⟨t, c⟩, ht, h⟩ := h
  dsimp only at h
  rw [Option.bind_eq_bind, Option.bind_eq_some_iff] at h
  obtain ⟨⟨n, d⟩, hn, h⟩ := h
  dsimp only at h
  split at h
  · cases h
  case isFalse enough =>
    obtain ⟨rfl, rfl⟩ := Prod.mk.inj (Option.some.inj h)
    exact ⟨c, n, d, ht, hn, Nat.not_lt.mp enough, rfl, rfl, rfl⟩

/-- An element stands at the start of the octets, with its content at its end. -/
theorem split_of_readElement? (h : readElement? b = some (e, r)) :
    b = e.octets ++ r ∧ e.content <:+ e.octets := by
  obtain ⟨c, n, d, ht, hn, enough, content, octets, rest⟩ := cases_of_readElement? h
  obtain ⟨p, rfl⟩ := (suffix_of_readLength? hn).trans (suffix_of_readTag? ht)
  have front : e.octets = p ++ d.take n := by
    have room : (p ++ d).length - (d.length - n) = p.length + n := by
      rw [List.length_append]
      omega
    rw [octets, room, List.take_length_add_append]
  rw [front, rest, content, List.append_assoc, List.take_append_drop]
  exact ⟨rfl, List.suffix_append _ _⟩

end Reading

/-! ## Integers -/

/-- The distance from zero, or from minus one for negative integers. -/
def magnitude (n : Int) : Nat :=
  if n < 0 then (-n - 1).toNat else n.toNat

theorem magnitude_cases (n : Int) :
    n < 0 ∧ (magnitude n : Int) = -n - 1 ∨ 0 ≤ n ∧ (magnitude n : Int) = n := by
  rw [magnitude]
  split <;> omega

theorem integerWidth_eq (n : Int) : integerWidth n =
    if magnitude n = 0 then 1 else (Nat.log2 (magnitude n) + 1) / 8 + 1 :=
  rfl

theorem integerWidth_pos (n : Int) : 0 < integerWidth n := by
  rw [integerWidth_eq]
  split
  · exact Nat.one_pos
  · exact Nat.succ_pos _

/-- One bit of the shortest form is left for the sign. -/
theorem magnitude_lt (n : Int) : 2 * magnitude n < 256 ^ integerWidth n := by
  rw [integerWidth_eq, ← Octets.pow_mul_eight]
  split
  case isTrue zero =>
    rw [zero]
    decide
  case isFalse _ =>
    have bits := Nat.lt_log2_self (n := magnitude n)
    have room : 2 ^ (Nat.log2 (magnitude n) + 2) ≤
        2 ^ (8 * ((Nat.log2 (magnitude n) + 1) / 8 + 1)) :=
      Nat.pow_le_pow_right (by decide) (by omega)
    rw [pow_succ] at room
    omega

/-- With one octet less there is no bit for the sign. -/
theorem le_magnitude {n : Int} (h : 1 < integerWidth n) :
    256 ^ (integerWidth n - 1) ≤ 2 * magnitude n := by
  rw [integerWidth_eq] at h ⊢
  split at h
  case isTrue _ => exact absurd h (by decide)
  case isFalse nonzero =>
    rw [if_neg nonzero, Nat.add_sub_cancel, ← Octets.pow_mul_eight]
    have bits := Nat.log2_self_le nonzero
    have room : 2 ^ (8 * ((Nat.log2 (magnitude n) + 1) / 8)) ≤ 2 ^ (Nat.log2 (magnitude n) + 1) :=
      Nat.pow_le_pow_right (by decide) (by omega)
    rw [pow_succ] at room
    omega

theorem length_encodeInteger (n : Int) : (encodeInteger n).length = integerWidth n :=
  Octets.length_ofNatWidth _ _

theorem toNat_encodeInteger (n : Int) :
    ((encodeInteger n).toNat : Int) = n % (256 ^ integerWidth n : Nat) := by
  have modulus : 1 <<< (8 * integerWidth n) = 256 ^ integerWidth n := by
    rw [Nat.one_shiftLeft, Octets.pow_mul_eight]
  have pos : (0 : Int) < (256 ^ integerWidth n : Nat) := by exact_mod_cast Nat.pow_pos (by decide)
  have nonneg := Int.emod_nonneg n pos.ne'
  have less := Int.emod_lt_of_pos n pos
  rw [encodeInteger, modulus, Octets.toNat_ofNatWidth, Nat.mod_eq_of_lt (by omega),
    Int.toNat_of_nonneg nonneg]

theorem signed_cases {b : Octets} (h : b ≠ []) :
    2 * b.toNat < 256 ^ b.length ∧ signed b = b.toNat ∨
      256 ^ b.length ≤ 2 * b.toNat ∧ signed b = b.toNat - (256 ^ b.length : Nat) := by
  obtain ⟨x, b, rfl⟩ := List.exists_cons_of_ne_nil h
  have modulus : 1 <<< (8 * (x :: b).length) = 256 ^ (x :: b).length := by
    rw [Nat.one_shiftLeft, Octets.pow_mul_eight]
  have range : 256 ^ (x :: b).length = 256 * 256 ^ b.length := pow_succ' 256 b.length
  have half : Octets.toNat (x :: b) < 128 * 256 ^ b.length ↔ x < 128 := Octets.toNat_cons_lt_iff
  rw [signed, modulus, range]
  by_cases hx : x < 128
  · have less := half.mpr hx
    rw [if_pos hx]
    exact .inl ⟨by omega, rfl⟩
  · have large := Nat.not_lt.mp fun less => hx (half.mp less)
    rw [if_neg hx]
    exact .inr ⟨by omega, rfl⟩

/-- **An integer is read back from its shortest form.** -/
theorem signed_encodeInteger (n : Int) : signed (encodeInteger n) = n := by
  have nonempty : encodeInteger n ≠ [] := by
    rw [← List.length_pos_iff, length_encodeInteger]
    exact integerWidth_pos n
  have room := magnitude_lt n
  have size := magnitude_cases n
  have value := toNat_encodeInteger n
  have sign := signed_cases nonempty
  have even : 2 ∣ 256 ^ integerWidth n := Dvd.dvd.pow (by decide) (integerWidth_pos n).ne'
  rw [length_encodeInteger] at sign
  generalize (encodeInteger n).toNat = v at value sign
  generalize 256 ^ integerWidth n = p at room value sign even
  -- the octets of a negative integer stand for the integer plus the range
  by_cases negative : n < 0
  · have wrapped : (n + p) % (p : Int) = n + p := Int.emod_eq_of_lt (by omega) (by omega)
    rw [Int.add_emod_right] at wrapped
    rw [wrapped] at value
    omega
  · have same : n % (p : Int) = n := Int.emod_eq_of_lt (by omega) (by omega)
    rw [same] at value
    omega

section TwoOctets

variable {x y : UInt8} {r : Octets}

theorem isMinimal_cons_cons_iff :
    isMinimal (x :: y :: r) = true ↔ ¬ (x = 0 ∧ y < 128) ∧ ¬ (x = 255 ∧ 128 ≤ y) := by
  rw [isMinimal, Bool.and_eq_true, Bool.not_eq_true', Bool.not_eq_true', Bool.eq_false_iff,
    Bool.eq_false_iff, ne_eq, ne_eq, Bool.and_eq_true, Bool.and_eq_true, beq_iff_eq, beq_iff_eq,
    decide_eq_true_eq, decide_eq_true_eq]

/-- A number below half of the range of all but the first octet. -/
theorem two_mul_toNat_lt_iff :
    2 * Octets.toNat (x :: y :: r) < 256 ^ (y :: r).length ↔ x = 0 ∧ y < 128 := by
  have first : Octets.toNat (x :: y :: r) < 1 * 256 ^ (y :: r).length ↔ x.toNat < 1 :=
    Octets.toNat_cons_lt_iff
  have second : Octets.toNat (y :: r) < 128 * 256 ^ r.length ↔ y < 128 := Octets.toNat_cons_lt_iff
  have range : 256 ^ (y :: r).length = 256 * 256 ^ r.length := pow_succ' 256 r.length
  have rest : Octets.toNat (0 :: y :: r) = Octets.toNat (y :: r) := by
    rw [Octets.toNat_cons, UInt8.toNat_zero, Nat.zero_mul, Nat.zero_add]
  constructor
  · intro h
    obtain rfl : x = 0 := UInt8.toNat_inj.mp (Nat.lt_one_iff.mp (first.mp (by omega)))
    exact ⟨rfl, second.mp (by omega)⟩
  · rintro ⟨rfl, hy⟩
    have less := second.mpr hy
    omega

/-- A number that half of this range is too small to complete. -/
theorem le_two_mul_toNat_iff :
    2 * 256 ^ (x :: y :: r).length ≤ 2 * Octets.toNat (x :: y :: r) + 256 ^ (y :: r).length ↔
      x = 255 ∧ 128 ≤ y := by
  have first : Octets.toNat (x :: y :: r) < 255 * 256 ^ (y :: r).length ↔ x.toNat < 255 :=
    Octets.toNat_cons_lt_iff
  have second : Octets.toNat (y :: r) < 128 * 256 ^ r.length ↔ y < 128 := Octets.toNat_cons_lt_iff
  have range : 256 ^ (y :: r).length = 256 * 256 ^ r.length := pow_succ' 256 r.length
  have whole : 256 ^ (x :: y :: r).length = 256 * 256 ^ (y :: r).length := pow_succ' 256 _
  have rest : Octets.toNat (255 :: y :: r) =
      255 * 256 ^ (y :: r).length + Octets.toNat (y :: r) :=
    Octets.toNat_cons 255 (y :: r)
  constructor
  · intro h
    have top : ¬ x.toNat < 255 := fun less => by
      have := first.mpr less
      omega
    have less := x.toNat_lt
    obtain rfl : x = 255 := UInt8.toNat_inj.mp (show x.toNat = 255 by omega)
    exact ⟨rfl, UInt8.not_lt.mp fun hy => by
      have := second.mpr hy
      omega⟩
  · rintro ⟨rfl, hy⟩
    have large := Nat.not_lt.mp fun less => UInt8.not_lt.mpr hy (second.mp less)
    omega

theorem isMinimal_cons_cons_iff_le : isMinimal (x :: y :: r) = true ↔
    256 ^ (y :: r).length ≤ 2 * magnitude (signed (x :: y :: r)) := by
  have sign := signed_cases (List.cons_ne_nil x (y :: r))
  have size := magnitude_cases (signed (x :: y :: r))
  have less := Octets.toNat_lt (x :: y :: r)
  have range : 256 ^ (y :: r).length = 256 * 256 ^ r.length := pow_succ' 256 r.length
  have whole : 256 ^ (x :: y :: r).length = 256 * 256 ^ (y :: r).length := pow_succ' 256 _
  have pos : 0 < 256 ^ r.length := Nat.pow_pos (by decide)
  rw [isMinimal_cons_cons_iff, ← two_mul_toNat_lt_iff (r := r), ← le_two_mul_toNat_iff (r := r)]
  rcases sign with ⟨_, sign⟩ | ⟨_, sign⟩ <;> rw [sign] at size ⊢ <;> omega

end TwoOctets

/-- The shortest form leaves no bit to spare. -/
theorem isMinimal_iff_le {b : Octets} (h : 1 < b.length) :
    isMinimal b = true ↔ 256 ^ (b.length - 1) ≤ 2 * magnitude (signed b) := by
  obtain ⟨x, c, rfl⟩ := List.exists_cons_of_length_pos (Nat.zero_lt_of_lt h)
  obtain ⟨y, r, rfl⟩ := List.exists_cons_of_length_pos (Nat.lt_of_succ_lt_succ h)
  exact isMinimal_cons_cons_iff_le

/-- **An integer is written in the shortest form.** -/
theorem isMinimal_encodeInteger (n : Int) : isMinimal (encodeInteger n) = true := by
  have length := length_encodeInteger n
  by_cases wide : 1 < integerWidth n
  · rw [isMinimal_iff_le (by rwa [length]), length, signed_encodeInteger]
    exact le_magnitude wide
  · have pos := integerWidth_pos n
    obtain ⟨x, hx⟩ := List.length_eq_one_iff.mp (show (encodeInteger n).length = 1 by omega)
    rw [hx]
    rfl

theorem length_of_isMinimal {b : Octets} (h : isMinimal b = true) :
    b.length = integerWidth (signed b) := by
  have nonempty : b ≠ [] := by
    rintro rfl
    cases h
  have pos := List.length_pos_iff.mpr nonempty
  have pos' := integerWidth_pos (signed b)
  have room := magnitude_lt (signed b)
  have room' : 2 * magnitude (signed b) < 256 ^ b.length := by
    have less := Octets.toNat_lt b
    have size := magnitude_cases (signed b)
    have even : 2 ∣ 256 ^ b.length := Dvd.dvd.pow (by decide) pos.ne'
    rcases signed_cases nonempty with ⟨_, sign⟩ | ⟨_, sign⟩ <;> rw [sign] at size ⊢ <;> omega
  have narrow {k w : Nat} (le : 256 ^ (k - 1) ≤ 2 * magnitude (signed b))
      (less : 2 * magnitude (signed b) < 256 ^ w) : k - 1 < w :=
    (Nat.pow_lt_pow_iff_right (by decide)).mp (le.trans_lt less)
  have most : b.length ≤ integerWidth (signed b) := by
    by_cases wide : 1 < b.length
    · have := narrow ((isMinimal_iff_le wide).mp h) room
      omega
    · omega
  have least : integerWidth (signed b) ≤ b.length := by
    by_cases wide : 1 < integerWidth (signed b)
    · have := narrow (le_magnitude wide) room'
      omega
    · omega
  omega

/-- **The shortest form of an integer is the only one.** -/
theorem eq_encodeInteger {b : Octets} (h : isMinimal b = true) : b = encodeInteger (signed b) := by
  have length : b.length = (encodeInteger (signed b)).length :=
    (length_of_isMinimal h).trans (length_encodeInteger _).symm
  have nonempty : b ≠ [] := by
    rintro rfl
    cases h
  have nonempty' : encodeInteger (signed b) ≠ [] := by
    rw [← List.length_pos_iff, ← length]
    exact List.length_pos_iff.mpr nonempty
  have less := Octets.toNat_lt b
  have less' := Octets.toNat_lt (encodeInteger (signed b))
  have sign := signed_cases nonempty
  have sign' := signed_cases nonempty'
  rw [signed_encodeInteger, ← length] at sign'
  rw [← length] at less'
  refine Octets.eq_of_toNat_eq length ?_
  omega

theorem encodeInteger_inj {n m : Int} (h : encodeInteger n = encodeInteger m) : n = m := by
  rw [← signed_encodeInteger n, h, signed_encodeInteger]

end Der

end AcmeClient
