import AcmeClient.Proofs.Text.Utf8

/-!
# ASCII texts

* `Text.IsAscii`, `Octets.ofChars_ascii`: an ASCII text has one octet for each character;
* `Octets.mem_ofChars_ascii`: an ASCII octet stands only for its own character.
-/

namespace AcmeClient

/-- All characters are those of ASCII. -/
def Text.IsAscii (s : List Char) : Prop :=
  ∀ c ∈ s, c.toNat < 128

theorem Text.isAscii_of_all {s : List Char} (h : s.all (·.toNat < 128) = true) : IsAscii s :=
  fun c hc => of_decide_eq_true (List.all_eq_true.mp h c hc)

namespace Octets

variable {c d : Char} {s : List Char} {x : UInt8}

/-- The octets of characters in UTF-8. -/
def ofChars (s : List Char) : Octets :=
  s.flatMap String.utf8EncodeChar

/-- The octets of ASCII characters. -/
def ofAscii (s : List Char) : Octets :=
  s.map fun c => UInt8.ofNat c.toNat

theorem ofAscii_cons (c : Char) (s : List Char) :
    ofAscii (c :: s) = UInt8.ofNat c.toNat :: ofAscii s :=
  rfl

theorem ofString_eq_ofChars (s : String) : ofString s = ofChars s.toList :=
  ofString_eq s

theorem ofString_append (s t : String) : ofString (s ++ t) = ofString s ++ ofString t := by
  simp only [ofString_eq, String.toList_append, List.flatMap_append]

theorem ofString_ofList (s : List Char) : ofString (String.ofList s) = ofChars s := by
  rw [ofString_eq_ofChars, String.toList_ofList]

theorem utf8EncodeChar_ascii (h : c.toNat < 128) :
    String.utf8EncodeChar c = [UInt8.ofNat c.toNat] := by
  have small : c.val.toNat ≤ 0x7f := Nat.le_of_lt_succ h
  rw [String.utf8EncodeChar, if_pos small]
  rfl

theorem le_of_mem_utf8EncodeChar (h : 128 ≤ c.toNat) (hx : x ∈ String.utf8EncodeChar c) :
    128 ≤ x.toNat := by
  have bounds : c.val.toNat < 0xd800 ∨ 0xdfff < c.val.toNat ∧ c.val.toNat < 0x110000 :=
    Utf8.toNat_bounds c
  have big : 128 ≤ c.val.toNat := h
  have value : ∀ v : Nat, v < 256 → (UInt8.ofNat v).toNat = v := fun v => UInt8.toNat_ofNat_of_lt'
  unfold String.utf8EncodeChar at hx
  dsimp only at hx
  generalize c.val.toNat = v at bounds big hx
  rw [if_neg (by omega)] at hx
  split_ifs at hx
  · simp only [List.mem_cons, List.not_mem_nil, or_false] at hx
    rcases hx with rfl | rfl <;> rw [value _ (by omega)] <;> omega
  · simp only [List.mem_cons, List.not_mem_nil, or_false] at hx
    rcases hx with rfl | rfl | rfl <;> rw [value _ (by omega)] <;> omega
  · simp only [List.mem_cons, List.not_mem_nil, or_false] at hx
    rcases hx with rfl | rfl | rfl | rfl <;> rw [value _ (by omega)] <;> omega

theorem utf8EncodeChar_ne_nil (c : Char) : String.utf8EncodeChar c ≠ [] := by
  unfold String.utf8EncodeChar
  dsimp only
  split_ifs <;> exact List.cons_ne_nil _ _

theorem ofNat_toNat_inj (hc : c.toNat < 128) (hd : d.toNat < 128)
    (h : UInt8.ofNat c.toNat = UInt8.ofNat d.toNat) : c = d := by
  have := congrArg UInt8.toNat h
  rw [UInt8.toNat_ofNat_of_lt' (Nat.lt_trans hc (by decide)),
    UInt8.toNat_ofNat_of_lt' (Nat.lt_trans hd (by decide))] at this
  rw [← Char.ofNat_toNat c, this, Char.ofNat_toNat]

theorem ofChars_ascii (h : Text.IsAscii s) : ofChars s = ofAscii s := by
  induction s with
  | nil => rfl
  | cons c s ih =>
    rw [ofChars, List.flatMap_cons, utf8EncodeChar_ascii (h c List.mem_cons_self)]
    exact congrArg (UInt8.ofNat c.toNat :: ·) (ih fun d hd => h d (List.mem_cons_of_mem _ hd))

theorem mem_ofChars_ascii (hc : c.toNat < 128) (h : UInt8.ofNat c.toNat ∈ ofChars s) : c ∈ s := by
  obtain ⟨d, hd, hx⟩ := List.mem_flatMap.mp h
  by_cases small : d.toNat < 128
  · rw [utf8EncodeChar_ascii small, List.mem_singleton] at hx
    rwa [ofNat_toNat_inj hc small hx]
  · have large := le_of_mem_utf8EncodeChar (Nat.not_lt.mp small) hx
    rw [UInt8.toNat_ofNat_of_lt' (Nat.lt_trans hc (by decide))] at large
    omega

/-- An ASCII text begins another text if its octets begin the octets of that text. -/
theorem ofAscii_prefix_ofChars_iff {m : List Char} (hm : Text.IsAscii m) :
    ofAscii m <+: ofChars s ↔ m <+: s := by
  induction m generalizing s with
  | nil => simp [ofAscii]
  | cons c m ih =>
    have hc : c.toNat < 128 := hm c List.mem_cons_self
    have rest := @ih (s := s.tail) fun d hd => hm d (List.mem_cons_of_mem _ hd)
    cases s with
    | nil => simp [ofAscii, ofChars]
    | cons d s =>
      rw [ofChars, List.flatMap_cons]
      by_cases small : d.toNat < 128
      · rw [utf8EncodeChar_ascii small, ofAscii_cons, List.singleton_append,
          List.cons_prefix_cons, List.cons_prefix_cons]
        constructor
        · rintro ⟨same, h⟩
          exact ⟨ofNat_toNat_inj hc small same, rest.mp h⟩
        · rintro ⟨rfl, h⟩
          exact ⟨rfl, rest.mpr h⟩
      · obtain ⟨x, l, hl⟩ := List.exists_cons_of_ne_nil (utf8EncodeChar_ne_nil d)
        have large : 128 ≤ x.toNat := le_of_mem_utf8EncodeChar (Nat.not_lt.mp small)
          (by rw [hl]; exact List.mem_cons_self)
        rw [hl, ofAscii_cons, List.cons_append, List.cons_prefix_cons, List.cons_prefix_cons]
        constructor
        · rintro ⟨rfl, -⟩
          rw [UInt8.toNat_ofNat_of_lt' (Nat.lt_trans hc (by decide))] at large
          omega
        · rintro ⟨rfl, -⟩
          exact absurd hc small

end Octets

end AcmeClient
