import AcmeClient.Der.Lenient
import AcmeClient.Proofs.Der

/-!
# Lenient reading of what is strict

* **`Lenient.readElement?_of_strict`**: an element in the distinguished encoding is read as the same
  element;
* `Lenient.Parts`: the elements of a content, whatever the number of steps;
* **`Lenient.readElement?_encode`**, `Lenient.children?_encode`: what is written is read back.
-/

namespace AcmeClient

namespace Lenient

variable {b c r : Octets} {t : Der.Tag}

/-! ## Elements in the distinguished encoding -/

theorem readDigits?_of_strict {n acc k : Nat} (first : acc = 0 → b.head? ≠ some 128)
    (h : Der.readDigits? n acc b = some (k, r)) : readDigits? acc b = some (k, r) := by
  induction n generalizing acc b with
  | zero => cases h
  | succ n ih =>
    cases b with
    | nil => cases h
    | cons x b =>
      have zero : ¬ (x = 128 ∧ acc = 0) := fun ⟨hx, ha⟩ => first ha (by rw [hx]; rfl)
      rw [Der.readDigits?] at h
      rw [readDigits?, if_neg zero]
      by_cases hx : x < 128
      · rw [if_pos hx] at h ⊢
        exact h
      · rw [if_neg hx] at h ⊢
        refine ih (fun hz => ?_) h
        have large : 128 ≤ x.toNat := Nat.not_lt.mp hx
        have less := x.toNat_lt
        have digit : x.toNat = 128 := by omega
        exact absurd ⟨UInt8.toNat_inj.mp digit, by omega⟩ zero

theorem readTag?_of_strict (h : Der.readTag? b = some (t, r)) : readTag? b = some (t, r) := by
  cases b with
  | nil => cases h
  | cons x b =>
    rw [Der.readTag?] at h
    rw [readTag?]
    dsimp only at h ⊢
    by_cases low : x.toNat % 32 < 31
    · rw [if_pos low] at h ⊢
      exact h
    · rw [if_neg low] at h ⊢
      cases hn : Der.readNumber? b with
      | none =>
        rw [hn] at h
        cases h
      | some p =>
        rw [hn] at h
        have digits : readDigits? 0 b = some p := by
          cases b with
          | nil => cases hn
          | cons y b =>
            rw [Der.readNumber?] at hn
            by_cases hy : y = 128
            · rw [if_pos hy] at hn
              cases hn
            · rw [if_neg hy] at hn
              exact readDigits?_of_strict (fun _ hc => hy (Option.some.inj hc)) hn
        rw [digits]
        exact h

theorem readLength?_of_strict {n : Nat} (h : Der.readLength? b = some (n, r)) :
    readLength? b = some (some n, r) := by
  cases b with
  | nil => cases h
  | cons x b =>
    rw [Der.readLength?] at h
    rw [readLength?]
    dsimp only at h ⊢
    by_cases small : x < 128
    · rw [if_pos (show x.toNat < 128 from small)] at h
      cases h
      rw [if_pos small]
    · rw [if_neg (show ¬ x.toNat < 128 from small)] at h
      rw [if_neg small]
      split at h
      case isTrue => cases h
      case isFalse sized =>
        have count : x.toNat - 128 ≠ 0 := fun hc => sized (.inl hc)
        have enough : ¬ b.length < x.toNat - 128 := fun hc => sized (.inr (.inr hc))
        rw [if_neg count, if_neg enough]
        split at h
        · cases h
        · obtain ⟨rfl, rfl⟩ := Prod.mk.inj (Option.some.inj h)
          rfl

/-- An element as the lenient reader shows it. -/
def ofStrict (e : Der.Element) : Element :=
  ⟨e.tag, e.content, e.octets⟩

theorem readElement?_of_header {n : Nat} (ht : readTag? b = some (t, c))
    (hn : readLength? c = some (some n, r)) (enough : n ≤ r.length) :
    readElement? b =
      some (⟨t, r.take n, b.take (b.length - (r.length - n))⟩, r.drop n) := by
  have header : readHeader? b = some (t, some n, r) := by
    rw [readHeader?, ht, Option.bind_eq_bind, Option.bind_some]
    dsimp only
    rw [hn, Option.bind_eq_bind, Option.bind_some]
    exact if_neg (by simp)
  rw [readElement?, header, Option.bind_eq_bind, Option.bind_some]
  exact if_neg (Nat.not_lt.mpr enough)

/-- **An element in the distinguished encoding is read as the same element.** -/
theorem readElement?_of_strict {e : Der.Element} (h : Der.readElement? b = some (e, r)) :
    readElement? b = some (ofStrict e, r) := by
  obtain ⟨c, n, d, ht, hn, enough, content, octets, rest⟩ := Der.cases_of_readElement? h
  rw [readElement?_of_header (readTag?_of_strict ht) (readLength?_of_strict hn) enough, rest,
    ofStrict, content, octets]

/-! ## The elements of a content -/

theorem childrenWithin?_of_readElement? {e : Element} (h : readElement? b = some (e, r))
    (n : Nat) : childrenWithin? (n + 1) b = (childrenWithin? n r).map (e :: ·) := by
  cases b with
  | nil => cases h
  | cons x b =>
    rw [childrenWithin?, h, Option.bind_eq_bind, Option.bind_some]
    · dsimp only
      cases childrenWithin? n r <;> rfl
    · exact nofun

/-- The elements of a content, whatever the number of steps. -/
def Parts (b : Octets) (es : List Element) : Prop :=
  ∃ n, childrenWithin? n b = some es

theorem parts_of_within? {e : Element} {es : List Element} (h : e.within? t = some es) :
    e.tag = t ∧ Parts e.content es := by
  rw [Element.within?] at h
  split at h
  case isTrue tag => exact ⟨tag, _, h⟩
  case isFalse => cases h

theorem Parts.of_strict {es : List Element} (h : Parts b es) {e : Der.Element}
    (he : Der.readElement? b = some (e, r)) : ∃ es', es = ofStrict e :: es' ∧ Parts r es' := by
  obtain ⟨n, hn⟩ := h
  cases n with
  | zero =>
    cases b with
    | nil => cases he
    | cons x b => cases hn
  | succ n =>
    rw [childrenWithin?_of_readElement? (readElement?_of_strict he), Option.map_eq_some_iff] at hn
    obtain ⟨es', hes, rfl⟩ := hn
    exact ⟨es', rfl, n, hes⟩

/-! ## What is written -/

/-- The tag that is written as one octet. -/
def tagOf (x : UInt8) : Der.Tag :=
  ⟨x.toNat / 64, x.toNat / 32 % 2 = 1, x.toNat % 32⟩

/-- The element that is written for a tag of one octet and a content. -/
def written (x : UInt8) (content : Octets) : Element :=
  ⟨tagOf x, content, Der.encode x content⟩

theorem readLength?_encodeLength {n : Nat} (h : n < 256 ^ 126) (r : Octets) :
    readLength? (Der.encodeLength n ++ r) = some (some n, r) := by
  rw [Der.encodeLength]
  split
  case isTrue small =>
    have value : (UInt8.ofNat n).toNat = n :=
      UInt8.toNat_ofNat_of_lt' (Nat.lt_trans small (by decide))
    have low : UInt8.ofNat n < 128 := by
      rw [UInt8.lt_iff_toNat_lt, value]
      exact small
    rw [List.singleton_append, readLength?, if_pos low, value]
  case isFalse large =>
    have width : Octets.widthOf n ≤ 126 := Octets.widthOf_le (by decide) h
    have pos := Octets.widthOf_pos n
    have value := Der.toNat_mark width
    have high : ¬ UInt8.ofNat (128 + Octets.widthOf n) < 128 := by
      rw [UInt8.lt_iff_toNat_lt, value]
      exact Nat.not_lt.mpr (Nat.le_add_right _ _)
    have length := Octets.length_ofNat n
    rw [List.cons_append, readLength?, if_neg high, value, Nat.add_sub_cancel_left, if_neg pos.ne',
      if_neg (by rw [List.length_append]; omega), ← length, List.take_left, List.drop_left,
      Octets.toNat_ofNat]

/-- **What is written is read back.** -/
theorem readElement?_encode {x : UInt8} (hx : x.toNat % 32 < 31) {content : Octets}
    (h : content.length < 256 ^ 126) (r : Octets) :
    readElement? (Der.encode x content ++ r) = some (written x content, r) := by
  have tag : readTag? (Der.encode x content ++ r) =
      some (tagOf x, Der.encodeLength content.length ++ (content ++ r)) := by
    rw [Der.encode, List.cons_append, List.cons_append, List.append_assoc, readTag?]
    exact if_pos hx
  have read := readElement?_of_header tag (readLength?_encodeLength h _)
    (by rw [List.length_append]; exact Nat.le_add_right _ _)
  have whole : (Der.encode x content ++ r).length - ((content ++ r).length - content.length) =
      (Der.encode x content).length := by
    simp only [List.length_append]
    omega
  rw [read, whole, List.take_left, List.take_left, List.drop_left]
  rfl

theorem childrenWithin?_encode {ps : List (UInt8 × Octets)}
    (tags : ∀ p ∈ ps, p.1.toNat % 32 < 31) (sizes : ∀ p ∈ ps, p.2.length < 256 ^ 126) {n : Nat}
    (hn : ps.length ≤ n) :
    childrenWithin? n (ps.flatMap fun p => Der.encode p.1 p.2) =
      some (ps.map fun p => written p.1 p.2) := by
  induction ps generalizing n with
  | nil => cases n <;> rfl
  | cons p ps ih =>
    obtain ⟨n, rfl⟩ := Nat.exists_eq_add_of_le' (Nat.le_of_add_left_le hn)
    have rest := ih (fun q hq => tags q (List.mem_cons_of_mem _ hq))
      (fun q hq => sizes q (List.mem_cons_of_mem _ hq)) (Nat.le_of_succ_le_succ hn)
    rw [List.flatMap_cons, childrenWithin?_of_readElement? (readElement?_encode
      (tags p List.mem_cons_self) (sizes p List.mem_cons_self) _), rest]
    rfl

theorem length_le_flatMap_encode (ps : List (UInt8 × Octets)) :
    ps.length ≤ (ps.flatMap fun p => Der.encode p.1 p.2).length := by
  induction ps with
  | nil => exact le_rfl
  | cons p ps ih =>
    have pos := Der.length_content_lt p.1 p.2
    rw [List.flatMap_cons, List.length_append, List.length_cons]
    omega

theorem children?_encode {ps : List (UInt8 × Octets)} (tags : ∀ p ∈ ps, p.1.toNat % 32 < 31)
    (sizes : ∀ p ∈ ps, p.2.length < 256 ^ 126) :
    children? (ps.flatMap fun p => Der.encode p.1 p.2) =
      some (ps.map fun p => written p.1 p.2) :=
  childrenWithin?_encode tags sizes (length_le_flatMap_encode ps)

end Lenient

end AcmeClient
