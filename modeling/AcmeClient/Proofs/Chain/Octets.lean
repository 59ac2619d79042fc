import AcmeClient.Proofs.Chain.Blocks
import AcmeClient.Proofs.Text.Ascii

/-!
# The characters of octets

Certificate blocks are searched for in the characters of octets, where all that is not ASCII is
replaced. ASCII texts are found there exactly where they are in the octets.

* `Chain.asciiChars_ofAscii`, `Chain.mem_asciiChars_iff`, `Chain.prefix_asciiChars_iff`: ASCII texts
  and their octets;
* `occurrences`: how often one list occurs in another;
* **`Chain.length_openings_octets`**, **`Chain.length_openings_text`**: there is an opening wherever
  the begin line occurs in octets or in a text.
-/

namespace AcmeClient

theorem Octets.hasInfix_iff {m b : Octets} : hasInfix m b = true ↔ m <:+: b := by
  induction b with
  | nil => simp [hasInfix]
  | cons x b ih => rw [hasInfix, Bool.or_eq_true, ih, List.infix_cons_iff,
      List.isPrefixOf_iff_prefix]

/-- How often `m` occurs in a list, also where it overlaps itself. -/
def occurrences {α : Type} [BEq α] (m : List α) : List α → Nat
  | [] => 0
  | x :: l => (if m.isPrefixOf (x :: l) then 1 else 0) + occurrences m l

namespace Chain

variable {b : Octets} {m s : List Char} {c : Char} {x : UInt8}

/-! ## ASCII texts among characters -/

theorem asciiChars_append (a b : Octets) : asciiChars (a ++ b) = asciiChars a ++ asciiChars b :=
  List.map_append

theorem asciiChar_eq_iff (h : c.toNat < 128) :
    (if x < 128 then Char.ofNat x.toNat else Char.ofNat 0xfffd) = c ↔ x = UInt8.ofNat c.toNat := by
  constructor
  · rintro rfl
    by_cases hx : x < 128
    · have valid : x.toNat < 128 := hx
      rw [if_pos hx, Char.ofNat, dif_pos (.inl (by omega))]
      exact UInt8.ofNat_toNat.symm
    · rw [if_neg hx] at h
      exact absurd h (by decide)
  · rintro rfl
    have value : (UInt8.ofNat c.toNat).toNat = c.toNat :=
      UInt8.toNat_ofNat_of_lt' (Nat.lt_trans h (by decide))
    have small : UInt8.ofNat c.toNat < 128 := by
      rw [UInt8.lt_iff_toNat_lt, value]
      exact h
    rw [if_pos small, value, Char.ofNat_toNat]

theorem asciiChars_ofAscii (h : Text.IsAscii s) : asciiChars (Octets.ofAscii s) = s := by
  rw [asciiChars, Octets.ofAscii, List.map_map]
  refine (List.map_congr_left fun c hc => ?_).trans (List.map_id s)
  exact (asciiChar_eq_iff (h c hc)).mpr rfl

theorem mem_asciiChars_iff (h : c.toNat < 128) :
    c ∈ asciiChars b ↔ UInt8.ofNat c.toNat ∈ b := by
  rw [asciiChars, List.mem_map]
  constructor
  · rintro ⟨x, hx, same⟩
    rwa [← (asciiChar_eq_iff h).mp same]
  · exact fun hb => ⟨_, hb, (asciiChar_eq_iff h).mpr rfl⟩

theorem prefix_asciiChars_iff (hm : Text.IsAscii m) :
    m <+: asciiChars b ↔ Octets.ofAscii m <+: b := by
  induction m generalizing b with
  | nil => simp [Octets.ofAscii]
  | cons c m ih =>
    have hc : c.toNat < 128 := hm c List.mem_cons_self
    cases b with
    | nil => simp [Octets.ofAscii, asciiChars]
    | cons x b =>
      have rest := @ih b fun d hd => hm d (List.mem_cons_of_mem _ hd)
      rw [Octets.ofAscii_cons, List.cons_prefix_cons, ← rest, asciiChars, List.map_cons,
        List.cons_prefix_cons, eq_comm, asciiChar_eq_iff hc, eq_comm]
      rfl

/-! ## Counting openings -/

theorem isAscii_beginLine : Text.IsAscii beginLine :=
  Text.isAscii_of_all (by decide +kernel)

/-- The begin line in octets. -/
def beginOctets : Octets :=
  Octets.ofAscii beginLine

theorem length_openings (s : List Char) : (openings s).length = occurrences beginLine s := by
  induction s with
  | nil => rfl
  | cons c s ih =>
    rw [openings, occurrences]
    split
    · rw [List.length_cons, ih, Nat.add_comm]
    · rw [ih, Nat.zero_add]

/-- **There is an opening wherever the begin line occurs in octets.** -/
theorem length_openings_octets (b : Octets) :
    (openings (asciiChars b)).length = occurrences beginOctets b := by
  rw [length_openings]
  induction b with
  | nil => rfl
  | cons x b ih =>
    have same : beginLine.isPrefixOf (asciiChars (x :: b)) = beginOctets.isPrefixOf (x :: b) := by
      rw [Bool.eq_iff_iff, List.isPrefixOf_iff_prefix, List.isPrefixOf_iff_prefix]
      exact prefix_asciiChars_iff isAscii_beginLine
    rw [occurrences, ← same, ← ih]
    rfl

theorem occurrences_append_of_le {a : Octets} (h : ∀ x ∈ a, 128 ≤ x.toNat) (b : Octets) :
    occurrences beginOctets (a ++ b) = occurrences beginOctets b := by
  induction a with
  | nil => rfl
  | cons x a ih =>
    have none_here : ¬ beginOctets.isPrefixOf (x :: (a ++ b)) := by
      obtain ⟨l, hl⟩ : ∃ l, beginOctets = 45 :: l := ⟨_, rfl⟩
      rw [List.isPrefixOf_iff_prefix, hl, List.cons_prefix_cons]
      rintro ⟨rfl, -⟩
      exact absurd (h 45 List.mem_cons_self) (by decide)
    rw [List.cons_append, occurrences, if_neg none_here, Nat.zero_add,
      ih fun y hy => h y (List.mem_cons_of_mem _ hy)]

theorem occurrences_ofChars (s : List Char) :
    occurrences beginOctets (Octets.ofChars s) = occurrences beginLine s := by
  induction s with
  | nil => rfl
  | cons c s ih =>
    rw [occurrences]
    by_cases small : c.toNat < 128
    · have octets : Octets.ofChars (c :: s) = UInt8.ofNat c.toNat :: Octets.ofChars s := by
        rw [Octets.ofChars, List.flatMap_cons, Octets.utf8EncodeChar_ascii small]
        rfl
      have same : beginOctets.isPrefixOf (Octets.ofChars (c :: s)) =
          beginLine.isPrefixOf (c :: s) := by
        rw [Bool.eq_iff_iff, List.isPrefixOf_iff_prefix, List.isPrefixOf_iff_prefix]
        exact Octets.ofAscii_prefix_ofChars_iff isAscii_beginLine
      rw [← same, octets, occurrences, ih]
    · have none_here : ¬ beginLine.isPrefixOf (c :: s) := by
        obtain ⟨l, hl⟩ : ∃ l, beginLine = '-' :: l := ⟨_, rfl⟩
        rw [List.isPrefixOf_iff_prefix, hl, List.cons_prefix_cons]
        rintro ⟨rfl, -⟩
        exact small (by decide)
      rw [if_neg none_here, Nat.zero_add, ← ih]
      exact occurrences_append_of_le
        (fun x => Octets.le_of_mem_utf8EncodeChar (Nat.not_lt.mp small)) _

/-- **There is an opening wherever the begin line occurs in a text.** -/
theorem length_openings_text (s : String) :
    (openings (asciiChars (Octets.ofString s))).length = occurrences beginLine s.toList := by
  rw [length_openings_octets, Octets.ofString_eq_ofChars, occurrences_ofChars]

end Chain

end AcmeClient
