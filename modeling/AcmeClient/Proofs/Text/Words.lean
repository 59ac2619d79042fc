import AcmeClient.Text.Blank
import Mathlib.Data.List.Basic
import Mathlib.Data.List.TakeWhile

/-!
# Parts and words

* `Text.splitOn_append_cons`: a separator divides the parts in front of it from those behind it;
* `Text.splitOn_of_none`: a text without separator is one part;
* `Text.mem_of_mem_splitOn`: the characters of a part;
* `Text.splitOn_injective`, `Text.splitOn_flatMap`: a text is known from its parts, and parts with a
  separator behind each of them are found again;
* **`Text.words_append_cons`**: a blank divides words in the same way;
* `Text.words_of_blanks`, `Text.words_of_solid`: blanks are no words, and a text without blanks is
  one;
* `Text.words_intercalate`: words with one blank between them are read back;
* `Text.length_le_of_mem_words`: a word is not longer than the text.
-/

namespace AcmeClient

namespace Text

variable {p : Char → Bool} {c : Char} {s t : List Char}

theorem consFirst_append (c : Char) {ps : List (List Char)} (h : ps ≠ []) (qs : List (List Char)) :
    consFirst c (ps ++ qs) = consFirst c ps ++ qs := by
  cases ps with
  | nil => exact absurd rfl h
  | cons q ps => rfl

theorem splitOn_cons_of_pos (h : p c = true) (s : List Char) :
    splitOn p (c :: s) = [] :: splitOn p s :=
  if_pos h

theorem splitOn_cons_of_neg (h : ¬ p c = true) (s : List Char) :
    splitOn p (c :: s) = consFirst c (splitOn p s) :=
  if_neg h

theorem splitOn_ne_nil (p : Char → Bool) (s : List Char) : splitOn p s ≠ [] := by
  cases s with
  | nil => exact List.cons_ne_nil _ _
  | cons c s =>
    by_cases h : p c = true
    · rw [splitOn_cons_of_pos h]
      exact List.cons_ne_nil _ _
    · rw [splitOn_cons_of_neg h]
      cases splitOn p s <;> exact List.cons_ne_nil _ _

/-- A separator divides the parts in front of it from those behind it. -/
theorem splitOn_append_cons (h : p c = true) (s t : List Char) :
    splitOn p (s ++ c :: t) = splitOn p s ++ splitOn p t := by
  induction s with
  | nil => exact splitOn_cons_of_pos h t
  | cons d s ih =>
    by_cases hd : p d = true
    · rw [List.cons_append, splitOn_cons_of_pos hd, ih, splitOn_cons_of_pos hd, List.cons_append]
    · rw [List.cons_append, splitOn_cons_of_neg hd, ih, consFirst_append d (splitOn_ne_nil p s),
        splitOn_cons_of_neg hd]

/-- A text without separator is one part. -/
theorem splitOn_of_none (h : ∀ c ∈ s, ¬ p c = true) : splitOn p s = [s] := by
  induction s with
  | nil => rfl
  | cons c s ih =>
    rw [splitOn_cons_of_neg (h c List.mem_cons_self), ih fun d hd => h d (List.mem_cons_of_mem c hd)]
    rfl

/-- A part has no separator, and all of its characters are those of the text. -/
theorem mem_of_mem_splitOn {part : List Char} (h : part ∈ splitOn p s) :
    ∀ c ∈ part, c ∈ s ∧ ¬ p c = true := by
  induction s generalizing part with
  | nil =>
    obtain rfl := List.mem_singleton.mp h
    exact fun c hc => absurd hc List.not_mem_nil
  | cons d s ih =>
    have later {part : List Char} (h : part ∈ splitOn p s) : ∀ c ∈ part, c ∈ d :: s ∧ ¬ p c = true :=
      fun c hc => (ih h c hc).imp (List.mem_cons_of_mem d) id
    by_cases hd : p d = true
    · rw [splitOn_cons_of_pos hd] at h
      rcases List.mem_cons.mp h with rfl | h
      · exact fun c hc => absurd hc List.not_mem_nil
      · exact later h
    · rw [splitOn_cons_of_neg hd] at h
      obtain ⟨first, others, parts⟩ := List.exists_cons_of_ne_nil (splitOn_ne_nil p s)
      rw [parts] at h later
      rcases List.mem_cons.mp h with rfl | h
      · intro c hc
        rcases List.mem_cons.mp hc with rfl | hc
        · exact ⟨List.mem_cons_self, hd⟩
        · exact later List.mem_cons_self c hc
      · exact later (List.mem_cons_of_mem first h)

theorem intercalate_splitOn (c : Char) (s : List Char) :
    [c].intercalate (splitOn (· == c) s) = s := by
  induction s with
  | nil => rfl
  | cons d s ih =>
    obtain ⟨part, parts, hs⟩ := List.exists_cons_of_ne_nil (splitOn_ne_nil (· == c) s)
    rw [hs] at ih
    by_cases hd : d = c
    · rw [splitOn_cons_of_pos (by simpa using hd), hs, List.intercalate_cons_cons, ih, hd]
      rfl
    · rw [splitOn_cons_of_neg (by simpa using hd), hs, consFirst]
      cases parts with
      | nil => simpa using congrArg (d :: ·) ih
      | cons q qs =>
        rw [List.intercalate_cons_cons] at ih ⊢
        rw [← ih]
        rfl

theorem splitOn_injective (c : Char) : Function.Injective (splitOn (· == c)) :=
  Function.LeftInverse.injective (intercalate_splitOn c)

/-- Parts with a separator behind each of them are found again. -/
theorem splitOn_flatMap {ps : List (List Char)} (h : ∀ q ∈ ps, c ∉ q) :
    splitOn (· == c) (ps.flatMap (· ++ [c])) = ps ++ [[]] := by
  induction ps with
  | nil => rfl
  | cons q ps ih =>
    have plain : ∀ d ∈ q, ¬ (d == c) = true := by
      intro d hd same
      exact h q List.mem_cons_self (beq_iff_eq.mp same ▸ hd)
    rw [List.flatMap_cons, List.append_assoc, List.singleton_append,
      splitOn_append_cons (p := (· == c)) (beq_self_eq_true c), splitOn_of_none plain,
      ih fun r hr => h r (List.mem_cons_of_mem q hr)]
    rfl

/-! ## Words -/

theorem words_nil : words [] = [] :=
  rfl

/-- A blank divides the words in front of it from those behind it. -/
theorem words_append_cons (h : Char.isBlank c = true) (s t : List Char) :
    words (s ++ c :: t) = words s ++ words t := by
  unfold words fields
  rw [splitOn_append_cons h, List.filter_append]

theorem words_append_of_blanks (s : List Char) (h : ∀ c ∈ t, Char.isBlank c = true) :
    words (s ++ t) = words s := by
  induction t generalizing s with
  | nil => rw [List.append_nil]
  | cons c t ih =>
    have rest := ih [] fun d hd => h d (List.mem_cons_of_mem c hd)
    rw [List.nil_append, words_nil] at rest
    rw [words_append_cons (h c List.mem_cons_self), rest, List.append_nil]

/-- Blanks are no words. -/
theorem words_of_blanks (h : ∀ c ∈ t, Char.isBlank c = true) : words t = [] :=
  words_append_of_blanks [] h

theorem words_blanks_append (h : ∀ c ∈ t, Char.isBlank c = true) (s : List Char) :
    words (t ++ s) = words s := by
  induction t with
  | nil => rfl
  | cons c t ih =>
    have first := words_append_cons (h c List.mem_cons_self) [] (t ++ s)
    rw [List.nil_append, words_nil, List.nil_append] at first
    rw [List.cons_append, first, ih fun d hd => h d (List.mem_cons_of_mem c hd)]

theorem words_dropWhile (s : List Char) : words (s.dropWhile Char.isBlank) = words s := by
  have same := words_blanks_append (t := s.takeWhile Char.isBlank) (fun c => List.mem_takeWhile_imp)
    (s.dropWhile Char.isBlank)
  rwa [List.takeWhile_append_dropWhile, eq_comm] at same

theorem solid_of_all (h : (s.all fun c => !Char.isBlank c) = true) :
    ∀ c ∈ s, ¬ Char.isBlank c = true := by
  simpa using h

/-- A text without blanks is one word. -/
theorem words_of_solid (ne : s ≠ []) (h : ∀ c ∈ s, ¬ Char.isBlank c = true) : words s = [s] := by
  unfold words fields
  rw [splitOn_of_none h]
  exact List.filter_cons_of_pos (by simpa using ne)

theorem words_solid_cons (ne : s ≠ []) (solid : ∀ c ∈ s, ¬ Char.isBlank c = true)
    (h : Char.isBlank c = true) (t : List Char) : words (s ++ c :: t) = s :: words t := by
  rw [words_append_cons h, words_of_solid ne solid, List.singleton_append]

/-- Words with one blank between them are read back. -/
theorem words_intercalate (h : Char.isBlank c = true) {ws : List (List Char)}
    (solid : ∀ w ∈ ws, w ≠ [] ∧ ∀ d ∈ w, ¬ Char.isBlank d = true) :
    words ([c].intercalate ws) = ws := by
  induction ws with
  | nil => rfl
  | cons w ws ih =>
    obtain ⟨ne, all⟩ := solid w List.mem_cons_self
    have rest := ih fun w hw => solid w (List.mem_cons_of_mem _ hw)
    cases ws with
    | nil => rw [List.intercalate_singleton, words_of_solid ne all]
    | cons v ws =>
      rw [List.intercalate_cons_cons, List.append_assoc, List.singleton_append,
        words_solid_cons ne all h, rest]

theorem length_le_of_mem_splitOn {w : List Char} (h : w ∈ splitOn p s) : w.length ≤ s.length := by
  induction s generalizing w with
  | nil => exact Nat.le_of_eq (congrArg List.length (List.mem_singleton.mp h))
  | cons c s ih =>
    by_cases hc : p c = true
    · rw [splitOn_cons_of_pos hc] at h
      rcases List.mem_cons.mp h with rfl | h
      · exact Nat.zero_le _
      · exact Nat.le_succ_of_le (ih h)
    · rw [splitOn_cons_of_neg hc] at h
      obtain ⟨q, qs, parts⟩ := List.exists_cons_of_ne_nil (splitOn_ne_nil p s)
      rw [parts] at h ih
      rcases List.mem_cons.mp h with rfl | h
      · exact Nat.succ_le_succ (ih List.mem_cons_self)
      · exact Nat.le_succ_of_le (ih (List.mem_cons_of_mem q h))

theorem length_le_of_mem_words {w : List Char} (h : w ∈ words s) : w.length ≤ s.length :=
  length_le_of_mem_splitOn (List.mem_of_mem_filter h)

end Text

end AcmeClient
