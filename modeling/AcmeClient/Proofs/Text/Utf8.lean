import Mathlib.Data.List.Basic
import Mathlib.Tactic.SplitIfs
import AcmeClient.Text.Utf8

/-!
# Texts and their octets

* `mapM_eq_some_iff`: results one by one;
* `Octets.ofString_eq`: the octets of a text are those of its characters, one after the other;
* `Utf8.decode?_eq_some_iff`: octets are a text if all its characters are there;
* **`Utf8.decode?_ofString`**: the octets of a text are read back;
* **`Utf8.decode?_eq_some_iff_octets`**: nothing else is read as a text.
-/

namespace AcmeClient

/-- All items succeed, each with its result. -/
theorem mapM_eq_some_iff {α β : Type} {f : α → Option β} {l : List α} {r : List β} :
    l.mapM f = some r ↔ l.map f = r.map some := by
  induction l generalizing r with
  | nil => cases r <;> simp
  | cons a l ih =>
    rw [List.mapM_cons, List.map_cons]
    cases ha : f a with
    | none => cases r <;> simp
    | some b =>
      cases hl : l.mapM f with
      | none =>
        cases r with
        | nil => simp
        | cons c r => simp [← ih, hl]
      | some bs =>
        cases r with
        | nil => simp
        | cons c r => simp [← ih, hl]

theorem octet_eq {n : Nat} {x : UInt8} (h : n = x.toNat) : UInt8.ofNat n = x := by
  rw [h, UInt8.ofNat_toNat]

namespace Octets

theorem toList_loop (b : ByteArray) (i : Nat) (r : List UInt8) :
    ByteArray.toList.loop b i r = r.reverse ++ b.data.toList.drop i := by
  induction h : b.size - i generalizing i r with
  | zero =>
    rw [ByteArray.toList.loop, if_neg (by omega), List.drop_eq_nil_of_le, List.append_nil]
    change b.size ≤ i
    omega
  | succ n ih =>
    have hi : i < b.data.toList.length := by
      change i < b.size
      omega
    have get : b.get! i = b.data.toList[i] := by
      change b.data[i]! = _
      rw [getElem!_pos b.data i hi, Array.getElem_toList]
    rw [ByteArray.toList.loop, if_pos (by omega), ih (i + 1) _ (by omega), get,
      List.drop_eq_getElem_cons hi, List.reverse_cons, List.append_assoc, List.singleton_append]

theorem ofString_eq (s : String) : ofString s = s.toList.flatMap String.utf8EncodeChar := by
  have data : s.toByteArray.data.toList = s.toList.flatMap String.utf8EncodeChar := by
    conv_lhs => rw [← String.ofList_toList (s := s), String.toByteArray_ofList, List.utf8Encode,
      List.toList_data_toByteArray]
  rw [ofString, String.toUTF8_eq_toByteArray, ByteArray.toList, toList_loop, data]
  rfl

end Octets

namespace Utf8

variable {b : Octets} {s : String}

theorem decode?_eq_some_iff : decode? b = some s ↔ scan none b = s.toList.map some := by
  rw [decode?, Option.map_eq_some_iff]
  constructor
  · rintro ⟨cs, hcs, rfl⟩
    rw [String.toList_ofList, ← mapM_eq_some_iff.mp hcs, List.map_id]
  · intro h
    exact ⟨s.toList, mapM_eq_some_iff.mpr ((List.map_id _).trans h), String.ofList_toList⟩

/-! ## One character -/

theorem toNat_bounds (c : Char) : c.toNat < 0xd800 ∨ 0xdfff < c.toNat ∧ c.toNat < 0x110000 :=
  c.valid

/-- An octet that a pending character expects, before the last one. -/
theorem scan_pending {p : Pending} {x : Nat} (hx : x < 256) (hl : p.low ≤ x) (hh : x ≤ p.high)
    (hm : 1 < p.missing) :
    scan (some p) (UInt8.ofNat x :: b) =
      scan (some ⟨p.missing - 1, 0x80, 0xbf, p.bits * 64 + x % 64⟩) b := by
  rw [scan, UInt8.toNat_ofNat_of_lt' hx, next, if_pos ⟨hl, hh⟩, if_neg (by omega)]
  rfl

/-- The last octet of a character. -/
theorem scan_last {p : Pending} {x : Nat} (hx : x < 256) (hl : p.low ≤ x) (hh : x ≤ p.high)
    (hm : p.missing ≤ 1) :
    scan (some p) (UInt8.ofNat x :: b) = some (Char.ofNat (p.bits * 64 + x % 64)) :: scan none b := by
  rw [scan, UInt8.toNat_ofNat_of_lt' hx, next, if_pos ⟨hl, hh⟩, if_pos hm]
  rfl

/-- The first octet of a character that has more than one. -/
theorem scan_lead {p : Pending} {x : Nat} (hx : x < 256) (hm : 0x80 ≤ x) (hp : lead x = some p) :
    scan none (UInt8.ofNat x :: b) = scan (some p) b := by
  rw [scan, UInt8.toNat_ofNat_of_lt' hx, start, if_neg (by omega), hp]
  rfl

theorem lead_two {v : Nat} (hl : 0x7f < v) (hh : v ≤ 0x7ff) :
    lead (v / 64 % 0x20 + 0xc0) = some ⟨1, 0x80, 0xbf, v / 64⟩ := by
  rw [lead, if_pos (by omega)]
  congr 2
  omega

theorem lead_three {v : Nat} (hl : 0x7ff < v) (hh : v ≤ 0xffff)
    (hv : v < 0xd800 ∨ 0xdfff < v ∧ v < 0x110000) :
    ∃ p, lead (v / 4096 % 0x10 + 0xe0) = some p ∧ p.missing = 2 ∧ p.bits = v / 4096 ∧
      p.low ≤ v / 64 % 0x40 + 0x80 ∧ v / 64 % 0x40 + 0x80 ≤ p.high := by
  rw [lead, if_neg (by omega)]
  split_ifs
  · exact ⟨_, rfl, rfl, by simp only; omega, by simp only; omega, by simp only; omega⟩
  · exact ⟨_, rfl, rfl, by simp only; omega, by simp only; omega, by simp only; omega⟩
  · exact ⟨_, rfl, rfl, by simp only; omega, by simp only; omega, by simp only; omega⟩
  all_goals omega

theorem lead_four {v : Nat} (hl : 0xffff < v) (hh : v < 0x110000) :
    ∃ p, lead (v / 262144 % 0x08 + 0xf0) = some p ∧ p.missing = 3 ∧ p.bits = v / 262144 ∧
      p.low ≤ v / 4096 % 0x40 + 0x80 ∧ v / 4096 % 0x40 + 0x80 ≤ p.high := by
  rw [lead, if_neg (by omega), if_neg (by omega), if_neg (by omega), if_neg (by omega)]
  split_ifs
  · exact ⟨_, rfl, rfl, by simp only; omega, by simp only; omega, by simp only; omega⟩
  · exact ⟨_, rfl, rfl, by simp only; omega, by simp only; omega, by simp only; omega⟩
  · exact ⟨_, rfl, rfl, by simp only; omega, by simp only; omega, by simp only; omega⟩
  all_goals omega

/-- **The octets of a character are read as this character.** -/
theorem scan_encodeChar (c : Char) :
    scan none (String.utf8EncodeChar c ++ b) = some c :: scan none b := by
  have bounds : c.val.toNat < 0xd800 ∨ 0xdfff < c.val.toNat ∧ c.val.toNat < 0x110000 :=
    toNat_bounds c
  have back : Char.ofNat c.val.toNat = c := Char.ofNat_toNat c
  unfold String.utf8EncodeChar
  dsimp only
  generalize c.val.toNat = v at bounds back ⊢
  split_ifs with h1 h2 h3
  · have hx : v < 256 := by omega
    rw [List.singleton_append, scan, UInt8.toNat_ofNat_of_lt' hx, start, if_pos (by omega), back]
    rfl
  · rw [List.cons_append, List.cons_append, List.nil_append,
      scan_lead (by omega) (by omega) (lead_two (by omega) h2),
      scan_last (by omega) (by simp only; omega) (by simp only; omega) (by simp only; omega)]
    rw [show v / 64 * 64 + (v % 0x40 + 0x80) % 64 = v by omega, back]
  · obtain ⟨p, hp, hm, hb, hlow, hhigh⟩ := lead_three (by omega) h3 bounds
    simp only [List.cons_append, List.nil_append]
    rw [scan_lead (by omega) (by omega) hp, scan_pending (by omega) hlow hhigh (by omega), hm, hb,
      scan_last (by omega) (by simp only; omega) (by simp only; omega) (by simp only; omega)]
    have bits : (v / 4096 * 64 + (v / 64 % 0x40 + 0x80) % 64) * 64 + (v % 0x40 + 0x80) % 64 = v := by
      omega
    rw [bits, back]
  · obtain ⟨p, hp, hm, hb, hlow, hhigh⟩ := lead_four (v := v) (by omega) (by omega)
    simp only [List.cons_append, List.nil_append]
    rw [scan_lead (by omega) (by omega) hp, scan_pending (by omega) hlow hhigh (by omega), hm, hb,
      scan_pending (by omega) (by simp only; omega) (by simp only; omega) (by simp only; omega),
      scan_last (by omega) (by simp only; omega) (by simp only; omega) (by simp only; omega)]
    rw [show ((v / 262144 * 64 + (v / 4096 % 0x40 + 0x80) % 64) * 64 +
      (v / 64 % 0x40 + 0x80) % 64) * 64 + (v % 0x40 + 0x80) % 64 = v by omega, back]

/-- **The octets of a text are read back.** -/
theorem decode?_ofString (s : String) : decode? (Octets.ofString s) = some s := by
  have chars : ∀ cs : List Char, scan none (cs.flatMap String.utf8EncodeChar) = cs.map some := by
    intro cs
    induction cs with
    | nil => rfl
    | cons c cs ih => rw [List.flatMap_cons, scan_encodeChar, ih, List.map_cons]
  rw [decode?_eq_some_iff, Octets.ofString_eq, chars]

theorem ofString_injective {s t : String} (h : Octets.ofString s = Octets.ofString t) : s = t := by
  have read := decode?_ofString s
  rw [h, decode?_ofString] at read
  exact (Option.some.inj read).symm

theorem decodeLossy_ofString (s : String) : decodeLossy (Octets.ofString s) = s := by
  rw [decodeLossy, decode?_eq_some_iff.mp (decode?_ofString s), List.map_map]
  exact (congrArg String.ofList (List.map_id _)).trans String.ofList_toList

/-! ## Only texts are read -/

section Accepted

variable {cs : List Char} {p : Pending} {x y z w : UInt8}

theorem exists_last (h : scan (some p) b = cs.map some) (hm : p.missing ≤ 1) :
    ∃ y b' cs', b = y :: b' ∧ p.low ≤ y.toNat ∧ y.toNat ≤ p.high ∧
      cs = Char.ofNat (p.bits * 64 + y.toNat % 64) :: cs' ∧ scan none b' = cs'.map some := by
  cases b with
  | nil => cases cs <;> cases h
  | cons y b =>
    rw [scan, next] at h
    split_ifs at h with range
    · cases cs with
      | nil => cases h
      | cons c cs =>
        obtain ⟨hc, rest⟩ := List.cons.inj h
        exact ⟨y, b, cs, rfl, range.1, range.2, by rw [Option.some.inj hc], rest⟩
    · cases cs with
      | nil => cases h
      | cons c cs => cases (List.cons.inj h).1

theorem exists_pending (h : scan (some p) b = cs.map some) (hm : 1 < p.missing) :
    ∃ y b', b = y :: b' ∧ p.low ≤ y.toNat ∧ y.toNat ≤ p.high ∧
      scan (some ⟨p.missing - 1, 0x80, 0xbf, p.bits * 64 + y.toNat % 64⟩) b' = cs.map some := by
  cases b with
  | nil => cases cs <;> cases h
  | cons y b =>
    rw [scan, next] at h
    split_ifs at h with range
    · omega
    · exact ⟨y, b, rfl, range.1, range.2, h⟩
    · cases cs with
      | nil => cases h
      | cons c cs => cases (List.cons.inj h).1

/-- What first octets announce, by the number of octets that follow. -/
theorem lead_cases {x : Nat} (h : lead x = some p) :
    (p.missing = 1 ∧ 0xc2 ≤ x ∧ x ≤ 0xdf ∧ p.low = 0x80 ∧ p.high = 0xbf ∧ p.bits = x % 32) ∨
    (p.missing = 2 ∧ 0xe0 ≤ x ∧ x ≤ 0xef ∧ 0x80 ≤ p.low ∧ p.high ≤ 0xbf ∧ p.bits = x % 16 ∧
      (x = 0xe0 → 0xa0 ≤ p.low) ∧ (x = 0xed → p.high ≤ 0x9f)) ∨
    (p.missing = 3 ∧ 0xf0 ≤ x ∧ x ≤ 0xf4 ∧ 0x80 ≤ p.low ∧ p.high ≤ 0xbf ∧ p.bits = x % 8 ∧
      (x = 0xf0 → 0x90 ≤ p.low) ∧ (x = 0xf4 → p.high ≤ 0x8f)) := by
  unfold lead at h
  split_ifs at h
  all_goals
    cases h
    dsimp only
    omega

theorem toNat_ofNat {v : Nat} (h : v < 0xd800 ∨ 0xdfff < v ∧ v < 0x110000) :
    (Char.ofNat v).val.toNat = v := by
  rw [Char.ofNat, dif_pos h]
  rfl

theorem encodeChar_one (hx : x.toNat < 0x80) :
    String.utf8EncodeChar (Char.ofNat x.toNat) = [x] := by
  unfold String.utf8EncodeChar
  rw [toNat_ofNat (by omega)]
  dsimp only
  rw [if_pos (by omega), octet_eq (x := x) rfl]

theorem encodeChar_two (hx : 0xc2 ≤ x.toNat ∧ x.toNat ≤ 0xdf)
    (hy : 0x80 ≤ y.toNat ∧ y.toNat ≤ 0xbf) :
    String.utf8EncodeChar (Char.ofNat (x.toNat % 32 * 64 + y.toNat % 64)) = [x, y] := by
  unfold String.utf8EncodeChar
  rw [toNat_ofNat (by omega)]
  dsimp only
  rw [if_neg (by omega), if_pos (by omega), octet_eq (x := x) (by omega),
    octet_eq (x := y) (by omega)]

theorem encodeChar_three (hx : 0xe0 ≤ x.toNat ∧ x.toNat ≤ 0xef)
    (hy : 0x80 ≤ y.toNat ∧ y.toNat ≤ 0xbf) (hz : 0x80 ≤ z.toNat ∧ z.toNat ≤ 0xbf)
    (long : x.toNat = 0xe0 → 0xa0 ≤ y.toNat) (whole : x.toNat = 0xed → y.toNat ≤ 0x9f) :
    String.utf8EncodeChar
      (Char.ofNat ((x.toNat % 16 * 64 + y.toNat % 64) * 64 + z.toNat % 64)) = [x, y, z] := by
  unfold String.utf8EncodeChar
  rw [toNat_ofNat (by omega)]
  dsimp only
  rw [if_neg (by omega), if_neg (by omega), if_pos (by omega), octet_eq (x := x) (by omega),
    octet_eq (x := y) (by omega), octet_eq (x := z) (by omega)]

theorem encodeChar_four (hx : 0xf0 ≤ x.toNat ∧ x.toNat ≤ 0xf4)
    (hy : 0x80 ≤ y.toNat ∧ y.toNat ≤ 0xbf) (hz : 0x80 ≤ z.toNat ∧ z.toNat ≤ 0xbf)
    (hw : 0x80 ≤ w.toNat ∧ w.toNat ≤ 0xbf) (long : x.toNat = 0xf0 → 0x90 ≤ y.toNat)
    (last : x.toNat = 0xf4 → y.toNat ≤ 0x8f) :
    String.utf8EncodeChar (Char.ofNat
      (((x.toNat % 8 * 64 + y.toNat % 64) * 64 + z.toNat % 64) * 64 + w.toNat % 64)) =
        [x, y, z, w] := by
  unfold String.utf8EncodeChar
  rw [toNat_ofNat (by omega)]
  dsimp only
  rw [if_neg (by omega), if_neg (by omega), if_neg (by omega), octet_eq (x := x) (by omega),
    octet_eq (x := y) (by omega), octet_eq (x := z) (by omega), octet_eq (x := w) (by omega)]

theorem exists_char (h : scan none (x :: b) = cs.map some) :
    ∃ c cs' b', x :: b = String.utf8EncodeChar c ++ b' ∧ cs = c :: cs' ∧
      scan none b' = cs'.map some := by
  rw [scan, start] at h
  split_ifs at h with ascii
  · cases cs with
    | nil => cases h
    | cons c cs =>
      obtain ⟨hc, rest⟩ := List.cons.inj h
      refine ⟨c, cs, b, ?_, rfl, rest⟩
      rw [← Option.some.inj hc, encodeChar_one ascii, List.singleton_append]
  cases hl : lead x.toNat with
  | none =>
    rw [hl] at h
    cases cs with
    | nil => cases h
    | cons c cs => cases (List.cons.inj h).1
  | some p =>
    rw [hl] at h
    change scan (some p) b = cs.map some at h
    rcases lead_cases hl with ⟨hm, low₀, high₀, low, high, bits⟩ |
      ⟨hm, low₀, high₀, low, high, bits, long, whole⟩ | ⟨hm, low₀, high₀, low, high, bits, long, last⟩
    · obtain ⟨y, b', cs', rfl, low₁, high₁, rfl, rest⟩ := exists_last h (by omega)
      refine ⟨_, cs', b', ?_, rfl, rest⟩
      rw [bits, encodeChar_two (by omega) (by omega)]
      rfl
    · obtain ⟨y, b₁, rfl, low₁, high₁, h₁⟩ := exists_pending h (by omega)
      obtain ⟨z, b', cs', rfl, low₂, high₂, rfl, rest⟩ := exists_last h₁ (by dsimp only; omega)
      refine ⟨_, cs', b', ?_, rfl, rest⟩
      rw [bits, encodeChar_three (by omega) (by omega) ⟨low₂, high₂⟩ (by omega) (by omega)]
      rfl
    · obtain ⟨y, b₁, rfl, low₁, high₁, h₁⟩ := exists_pending h (by omega)
      obtain ⟨z, b₂, rfl, low₂, high₂, h₂⟩ := exists_pending h₁ (by dsimp only; omega)
      obtain ⟨w, b', cs', rfl, low₃, high₃, rfl, rest⟩ := exists_last h₂ (by dsimp only; omega)
      refine ⟨_, cs', b', ?_, rfl, rest⟩
      rw [bits, encodeChar_four (by omega) (by omega) ⟨low₂, high₂⟩ ⟨low₃, high₃⟩ (by omega)
        (by omega)]
      rfl

/-- **Octets are read as a text exactly if they are its octets.** -/
theorem decode?_eq_some_iff_octets : decode? b = some s ↔ b = Octets.ofString s := by
  constructor
  · intro h
    rw [decode?_eq_some_iff] at h
    rw [Octets.ofString_eq]
    generalize s.toList = cs at h
    induction cs generalizing b with
    | nil =>
      cases b with
      | nil => rfl
      | cons x b =>
        obtain ⟨c, cs', b', -, hcs, -⟩ := exists_char h
        cases hcs
    | cons c cs ih =>
      cases b with
      | nil => cases h
      | cons x b =>
        obtain ⟨_, _, b', hb, ⟨⟩, rest⟩ := exists_char h
        rw [hb, List.flatMap_cons, ← ih rest]
  · rintro rfl
    exact decode?_ofString s

end Accepted

end Utf8

end AcmeClient
