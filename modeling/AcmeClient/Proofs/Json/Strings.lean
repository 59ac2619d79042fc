import Mathlib.Data.List.Basic
import Mathlib.Tactic.SplitIfs
import AcmeClient.Json.Reader
import AcmeClient.Json.Writer

/-!
# Strings in JSON

* `Quoted.hex_succ`: the last digit of a hexadecimal number;
* `Json.readString_unit`, `Json.readString_pair`: reading the escape of one unit, and of two;
* `Json.readString_escape`: reading a character as it is written;
* **`Json.readString_quote`**: a string is read back, whatever follows it.
-/

namespace AcmeClient

namespace Quoted

/-- All but the last digit of a hexadecimal number, and the last one. -/
theorem hex_succ {w : Nat} (hw : 0 < w) (n : Nat) :
    hex (w + 1) n = hex w (n / 16) ++ [Nat.digitChar (n % 16)] := by
  unfold hex
  dsimp only
  by_cases hn : n < 16
  · obtain ⟨v, rfl⟩ : ∃ v, w = v + 1 := ⟨w - 1, by omega⟩
    rw [Nat.toDigits_of_lt_base hn, Nat.div_eq_of_lt hn, Nat.mod_eq_of_lt hn, Nat.toDigits_zero]
    simp only [List.length_singleton, Nat.add_sub_cancel]
    rw [List.replicate_succ']
  · rw [Nat.toDigits_of_base_le (by decide) (by omega), List.length_append, List.length_singleton,
      Nat.add_sub_add_right, List.append_assoc]

theorem hex_one {n : Nat} (hn : n < 16) : hex 1 n = [Nat.digitChar n] := by
  rw [hex, Nat.toDigits_of_lt_base hn]
  rfl

end Quoted

namespace Json

theorem hex?_digitChar : ∀ d < 16, Digit.hex? (Nat.digitChar d) = some d := by
  decide

theorem unit_eq {n : Nat} (hn : n < 0x10000) :
    ∃ a b c d, unit n = ['\\', 'u', a, b, c, d] ∧ unit? a b c d = some n := by
  refine ⟨Nat.digitChar (n / 16 / 16 / 16), Nat.digitChar (n / 16 / 16 % 16),
    Nat.digitChar (n / 16 % 16), Nat.digitChar (n % 16), ?_, ?_⟩
  · rw [unit, Quoted.hex_succ (by decide), Quoted.hex_succ (by decide), Quoted.hex_succ (by decide),
      Quoted.hex_one (by omega)]
    rfl
  · rw [unit?, hex?_digitChar _ (by omega), hex?_digitChar _ (by omega), hex?_digitChar _ (by omega),
      hex?_digitChar _ (by omega)]
    simp only [Option.bind_eq_bind, Option.bind_some, Option.some.injEq]
    omega

section Strings

variable {s : List Char}

theorem readString_of_unit?_eq_none {a b c d : Char} (h : unit? a b c d = none) :
    readString ('\\' :: 'u' :: a :: b :: c :: d :: s) = none := by
  by_cases hs : ∃ e f g h r, s = '\\' :: 'u' :: e :: f :: g :: h :: r
  · obtain ⟨e, f, g, h', r, rfl⟩ := hs
    rw [readString, h]
  · rw [readString, h]
    rintro e f g h' r rfl
    exact hs ⟨e, f, g, h', r, rfl⟩

/-- The escape of a unit that is not half of a pair. -/
theorem readString_unit {n : Nat} (hn : n < 0x10000) (hp : ¬ (0xd800 ≤ n ∧ n ≤ 0xdfff)) :
    readString (unit n ++ s) = (readString s).map fun r => (Char.ofNat n :: r.1, r.2) := by
  obtain ⟨a, b, c, d, hu, hv⟩ := unit_eq hn
  have one : charOfUnit n = Char.ofNat n := if_neg hp
  rw [hu]
  simp only [List.cons_append, List.nil_append]
  by_cases hs : ∃ e f g h r, s = '\\' :: 'u' :: e :: f :: g :: h :: r
  · obtain ⟨e, f, g, h, r, rfl⟩ := hs
    rw [readString, hv]
    cases he : unit? e f g h with
    | none =>
      rw [readString_of_unit?_eq_none he]
      rfl
    | some m =>
      dsimp only
      rw [if_neg (by omega), one]
  · rw [readString, hv]
    · dsimp only
      rw [one]
    · rintro e f g h r rfl
      exact hs ⟨e, f, g, h, r, rfl⟩

/-- The escapes of both halves of a pair. -/
theorem readString_pair {m n : Nat} (hm : 0xd800 ≤ m ∧ m ≤ 0xdbff) (hn : 0xdc00 ≤ n ∧ n ≤ 0xdfff) :
    readString (unit m ++ unit n ++ s) =
      (readString s).map fun r => (charOfPair m n :: r.1, r.2) := by
  obtain ⟨a, b, c, d, hu, hv⟩ := unit_eq (n := m) (by omega)
  obtain ⟨e, f, g, h, hu', hv'⟩ := unit_eq (n := n) (by omega)
  rw [hu, hu']
  simp only [List.cons_append, List.nil_append]
  rw [readString, hv, hv']
  dsimp only
  rw [if_pos ⟨hm.1, hm.2, hn⟩]

theorem readString_short {x c : Char} (hx : x ≠ 'u') (h : shortEscape? x = some c) :
    readString ('\\' :: x :: s) = (readString s).map fun r => (c :: r.1, r.2) := by
  rw [readString, h]
  · rintro _ _ _ _ _ _ _ _ _ rfl
    exact absurd rfl hx
  · rintro _ _ _ _ _ rfl
    exact absurd rfl hx

theorem readString_plain {c : Char} (hq : c ≠ '"') (hb : c ≠ '\\') (hc : 0x20 ≤ c.toNat) :
    readString (c :: s) = (readString s).map fun r => (c :: r.1, r.2) := by
  rw [readString, if_neg]
  · rintro (h | h)
    · omega
    · exact hb h
  · exact hq
  · exact fun _ _ _ _ _ _ _ _ _ h => absurd h hb
  · exact fun _ _ _ _ _ h => absurd h hb
  · exact fun _ _ h => absurd h hb

/-- **A character is read as it is written.** -/
theorem readString_escape (c : Char) :
    readString (escape c ++ s) = (readString s).map fun r => (c :: r.1, r.2) := by
  have back : Char.ofNat c.toNat = c := Char.ofNat_toNat c
  have valid : c.toNat < 0xd800 ∨ 0xdfff < c.toNat ∧ c.toNat < 0x110000 := c.valid
  unfold escape
  split_ifs with h1 h2 h3 h4 h5 h6 h7 h8
  · rcases h1 with rfl | rfl
    · exact readString_short (by decide) rfl
    · exact readString_short (by decide) rfl
  · subst h2
    exact readString_short (by decide) rfl
  · subst h3
    exact readString_short (by decide) rfl
  · subst h4
    exact readString_short (by decide) rfl
  · rw [h5] at back
    subst back
    exact readString_short (by decide) rfl
  · rw [h6] at back
    subst back
    exact readString_short (by decide) rfl
  · rw [not_or] at h1
    exact readString_plain h1.1 h1.2 h7.1
  · rw [readString_unit h8 (by omega), back]
  · dsimp only
    rw [readString_pair (by omega) (by omega), charOfPair]
    rw [show 0x10000 + (0xd800 + (c.toNat - 0x10000) / 0x400 - 0xd800) * 0x400 +
      (0xdc00 + (c.toNat - 0x10000) % 0x400 - 0xdc00) = c.toNat by omega, back]

/-- **A string is read back, whatever follows it.** -/
theorem readString_quote (cs : List Char) :
    readString (cs.flatMap escape ++ '"' :: s) = some (cs, s) := by
  induction cs with
  | nil => rfl
  | cons c cs ih =>
    rw [List.flatMap_cons, List.append_assoc, readString_escape, ih]
    rfl

end Strings

end Json

end AcmeClient
