import AcmeClient.Text.Split
import Mathlib.Data.List.Basic
import Mathlib.Data.List.TakeWhile

/-!
# What a scan leaves behind

A reader takes characters while they satisfy a predicate. Where a text is followed by something that
stops the reader, the reading does not depend on what follows.

* `Text.Ends`: a text is over or goes on with a certain character;
* `Text.takeWhile_append_stop`, `Text.dropWhile_append_stop`: what is taken of a text that something
  stopping follows, and what is left;
* `Text.takeWhile_exact`, `Text.dropWhile_exact`: the same where all of the text is taken;
* `Text.strip_between`: what is left if something is removed at both ends;
* `Text.exists_first_part`, `Text.exists_last_part`: the parts in front of the first occurrence of a
  character and behind the last one;
* `Text.after?_eq_some_iff`, `Text.after?_append`: what follows a start.
-/

namespace AcmeClient

namespace Text

variable {p : Char → Bool} {c : Char} {q r s t : List Char}

/-- The text is empty or starts with the character. -/
def Ends (c : Char) (t : List Char) : Prop :=
  ∀ d ∈ t.head?, d = c

theorem ends_nil (c : Char) : Ends c [] :=
  nofun

theorem ends_cons (c : Char) (t : List Char) : Ends c (c :: t) :=
  fun _ h => (Option.some.inj h).symm

theorem Ends.stop (h : Ends c t) (stops : p c = false) : ∀ d ∈ t.head?, p d = false :=
  fun d hd => h d hd ▸ stops

theorem Ends.eq_nil_or (h : Ends c t) : t = [] ∨ ∃ u, t = c :: u := by
  cases t with
  | nil => exact .inl rfl
  | cons d u => exact .inr ⟨u, congrArg (· :: u) (h d rfl)⟩

/-! ## Taking and dropping -/

theorem takeWhile_stop (h : ∀ c ∈ t.head?, p c = false) : t.takeWhile p = [] := by
  cases t with
  | nil => rfl
  | cons c t => exact List.takeWhile_cons_of_neg (by simp [h c rfl])

theorem dropWhile_stop (h : ∀ c ∈ t.head?, p c = false) : t.dropWhile p = t := by
  cases t with
  | nil => rfl
  | cons c t => exact List.dropWhile_cons_of_neg (by simp [h c rfl])

theorem takeWhile_append_stop (s : List Char) (h : ∀ c ∈ t.head?, p c = false) :
    (s ++ t).takeWhile p = s.takeWhile p := by
  induction s with
  | nil => exact takeWhile_stop h
  | cons c s ih => rw [List.cons_append, List.takeWhile_cons, List.takeWhile_cons, ih]

theorem dropWhile_append_stop (s : List Char) (h : ∀ c ∈ t.head?, p c = false) :
    (s ++ t).dropWhile p = s.dropWhile p ++ t := by
  induction s with
  | nil => exact dropWhile_stop h
  | cons c s ih =>
    rw [List.cons_append, List.dropWhile_cons, List.dropWhile_cons, ih]
    split_ifs <;> rfl

theorem takeWhile_exact (hs : ∀ c ∈ s, p c = true) (h : ∀ c ∈ t.head?, p c = false) :
    (s ++ t).takeWhile p = s := by
  rw [takeWhile_append_stop s h, List.takeWhile_eq_self_iff.mpr hs]

theorem dropWhile_exact (hs : ∀ c ∈ s, p c = true) (h : ∀ c ∈ t.head?, p c = false) :
    (s ++ t).dropWhile p = t := by
  rw [List.dropWhile_append_of_pos hs, dropWhile_stop h]

/-- Characters are removed around a text that neither starts nor ends with such a character. -/
theorem strip_between {pre post : List Char} (ne : s ≠ []) (before : ∀ c ∈ pre, p c = true)
    (behind : ∀ c ∈ post, p c = true) (first : ∀ c ∈ s.head?, ¬ p c)
    (last : ∀ c ∈ s.getLast?, ¬ p c) : strip p (pre ++ s ++ post) = s := by
  have front : (s ++ post).head? = s.head? := List.head?_append_of_ne_nil s ne
  have back : s.reverse.head? = s.getLast? := List.head?_reverse
  have starts : ∀ c ∈ (s ++ post).head?, p c = false := fun c hc =>
    Bool.eq_false_iff.mpr (first c (front ▸ hc))
  have ends : ∀ c ∈ s.reverse.head?, p c = false := fun c hc =>
    Bool.eq_false_iff.mpr (last c (back ▸ hc))
  rw [strip, List.append_assoc, dropWhile_exact before starts, List.reverse_append,
    dropWhile_exact (fun c hc => behind c (List.mem_reverse.mp hc)) ends, List.reverse_reverse]

/-- A text has a first part, which ends at the first occurrence of the character. -/
theorem exists_first_part (c : Char) (s : List Char) :
    ∃ part rest, s = part ++ rest ∧ c ∉ part ∧ Ends c rest := by
  induction s with
  | nil => exact ⟨[], [], rfl, List.not_mem_nil, ends_nil c⟩
  | cons d s ih =>
    obtain ⟨part, rest, rfl, plain, ends⟩ := ih
    by_cases h : c = d
    · exact ⟨[], d :: (part ++ rest), rfl, List.not_mem_nil, h ▸ ends_cons d _⟩
    · exact ⟨d :: part, rest, rfl, List.not_mem_cons_of_ne_of_not_mem h plain, ends⟩

/-- A text has a last part, which starts behind the last occurrence of the character, if any. -/
theorem exists_last_part (c : Char) (s : List Char) :
    c ∉ s ∨ ∃ front part, s = front ++ c :: part ∧ c ∉ part := by
  induction s with
  | nil => exact .inl List.not_mem_nil
  | cons d s ih =>
    rcases ih with plain | ⟨front, part, rfl, plain⟩
    · by_cases h : c = d
      · exact .inr ⟨[], s, h ▸ rfl, plain⟩
      · exact .inl (List.not_mem_cons_of_ne_of_not_mem h plain)
    · exact .inr ⟨d :: front, part, rfl, plain⟩

/-! ## What follows a start -/

theorem after?_eq_some_iff : after? q s = some r ↔ s = q ++ r := by
  unfold after?
  constructor
  · intro h
    by_cases hq : q.isPrefixOf s
    · obtain ⟨t, rfl⟩ := List.isPrefixOf_iff_prefix.mp hq
      rw [if_pos hq, List.drop_left] at h
      rw [Option.some.inj h]
    · rw [if_neg hq] at h
      cases h
  · rintro rfl
    rw [if_pos (List.isPrefixOf_iff_prefix.mpr (List.prefix_append q r)), List.drop_left]

theorem after?_append_self (q r : List Char) : after? q (q ++ r) = some r :=
  after?_eq_some_iff.mpr rfl

theorem after?_eq_none_iff : after? q s = none ↔ ¬ q <+: s := by
  rw [Option.eq_none_iff_forall_ne_some]
  constructor
  · rintro h ⟨r, rfl⟩
    exact h r (after?_append_self q r)
  · rintro h r hr
    exact h ⟨r, (after?_eq_some_iff.mp hr).symm⟩

/-- A start does not reach beyond the text if a character follows that it does not contain. -/
theorem after?_append (s : List Char) (hc : c ∉ q) (h : Ends c t) :
    after? q (s ++ t) = (after? q s).map (· ++ t) := by
  cases hs : after? q s with
  | some r =>
    rw [after?_eq_some_iff.mp hs, List.append_assoc, after?_append_self, Option.map_some]
  | none =>
    rw [Option.map_none, after?_eq_none_iff]
    rw [after?_eq_none_iff] at hs
    rcases h.eq_nil_or with rfl | ⟨u, rfl⟩
    · rwa [List.append_nil]
    · intro start
      rcases List.prefix_or_prefix_of_prefix start (List.prefix_append s (c :: u)) with
        inside | ⟨v, rfl⟩
      · exact hs inside
      · -- the start would contain what follows the text
        rcases v with _ | ⟨d, v⟩
        · exact hs (by simp)
        · rw [List.prefix_append_right_inj, List.cons_prefix_cons] at start
          exact hc (by simp [start.1])

end Text

end AcmeClient
