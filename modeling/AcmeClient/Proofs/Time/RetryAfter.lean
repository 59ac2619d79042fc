import Mathlib.Tactic.SplitIfs
import AcmeClient.Proofs.Unwrapped
import AcmeClient.Time.RetryAfter

/-!
# What may stand in place of a delay

* `RetryAfter.IsDelay`: a text of digits is a delay;
* `MailDate.Fields.Excessive`, `MailDate.read_eq_excessive_iff`: the dates with numbers beyond all
  bounds;
* `RetryAfter.Fatal`: the texts that are neither used nor ignored;
* **`RetryAfter.failsIff_parse`**: all others are.
-/

namespace AcmeClient

theorem Digit.mapM_value?_eq_none_iff {s : List Char} :
    s.mapM value? = none ↔ ∃ c ∈ s, value? c = none := by
  induction s with
  | nil => simp
  | cons c s ih =>
    rw [List.mapM_cons]
    cases hc : value? c with
    | none => simp [hc]
    | some d =>
      cases hs : s.mapM value? with
      | none => simp [hc, ih.mp hs]
      | some ds =>
        have none := mt ih.mpr (by rw [hs]; nofun)
        simpa [hc] using none

theorem Digit.number?_eq_none_iff {s : List Char} (ne : s ≠ []) :
    number? s = none ↔ ∃ c ∈ s, value? c = none := by
  rw [number?, if_neg (by simpa using ne), Option.map_eq_none_iff, mapM_value?_eq_none_iff]

/-! ## Dates -/

namespace MailDate

/-- A number does not fit in 32 bits. -/
def IsLong (n : Int) : Prop :=
  n < -0x80000000 ∨ 0x80000000 ≤ n

/-- The offset has too many days. -/
def Fields.IsFar (f : Fields) : Prop :=
  ∃ o, f.offset = some o ∧ (999999999 < o / 86400 ∨ o / 86400 < -999999999)

/-- The offset has too many days, or it is possible and another number is too long. -/
def Fields.Excessive (f : Fields) : Prop :=
  f.IsFar ∨ (∀ o, f.offset = some o → o.natAbs < 86400) ∧
    (IsLong f.year ∨ IsLong f.day ∨ IsLong f.hour ∨ IsLong f.minute ∨ IsLong f.second)

theorem isShort_eq_false_iff {n : Int} : isShort n = false ↔ IsLong n := by
  unfold isShort IsLong
  rw [Bool.and_eq_false_iff, decide_eq_false_iff_not, decide_eq_false_iff_not]
  omega

theorem Fields.reading_eq_excessive_iff (f : Fields) : f.reading = .excessive ↔ f.Excessive := by
  have possible : (!(f.offset.map isOffset).getD true) = true ↔
      ¬ ∀ o, f.offset = some o → o.natAbs < 86400 := by
    cases f.offset <;> simp [isOffset]
  have long : (!(isShort f.year && isShort f.day && isShort f.hour && isShort f.minute
      && isShort f.second)) = true ↔
      (IsLong f.year ∨ IsLong f.day ∨ IsLong f.hour ∨ IsLong f.minute ∨ IsLong f.second) := by
    simp [← isShort_eq_false_iff, or_assoc]
  unfold reading Excessive
  dsimp only
  -- the checks in their order
  split_ifs with h1 h2 h3 h4
  · refine iff_of_true rfl (.inl ?_)
    cases ho : f.offset with
    | none =>
      rw [ho] at h1
      cases h1
    | some o =>
      rw [ho] at h1
      exact ⟨o, ho, by simpa using h1⟩
  all_goals
    have near : ¬ f.IsFar := by
      rintro ⟨o, ho, days⟩
      rw [ho] at h1
      exact h1 (by simpa using days)
  · exact iff_of_false (by decide) fun h => h.elim near fun h => possible.mp h2 h.1
  · exact iff_of_true rfl (.inr ⟨Classical.not_not.mp (mt possible.mpr h2), long.mp h3⟩)
  · exact iff_of_false (by decide) fun h => h.elim near fun h => h3 (long.mpr h.2)
  · refine iff_of_false ?_ fun h => h.elim near fun h => h3 (long.mpr h.2)
    cases DateTime.ofFields? _ _ f.offset <;> simp

theorem read_eq_excessive_iff {s : List Char} :
    read s = .excessive ↔ ∃ f, fields? s = some f ∧ f.Excessive := by
  unfold read
  cases h : fields? s with
  | none => simp
  | some f => simp [f.reading_eq_excessive_iff]

end MailDate

/-! ## Delays -/

namespace RetryAfter

/-- The characters are digits, with or without place value. -/
def IsDelay (s : List Char) : Prop :=
  s ≠ [] ∧ ∀ c ∈ s, Digit.isDigit c = true

/-- The delay has too many digits or one without place value, or it ends after the last year. -/
def Endless (s : List Char) (now : DateTime) : Prop :=
  maxDigits < s.length ∨ (∃ c ∈ s, Digit.value? c = none) ∨
    ∃ n, Digit.number? s = some n ∧ DateTime.tickCount ≤ now.ticks + n * 1000000

/-- The texts that are neither used nor ignored: delays without end, and dates with numbers beyond
all bounds. -/
def Fatal (s : String) (now : DateTime) : Prop :=
  let s := Text.trim s.toList
  (IsDelay s ∧ Endless s now) ∨
    (¬ IsDelay s ∧ ∃ f, MailDate.fields? s = some f ∧ f.Excessive)

/-- An outcome that is no result exactly if `p`, and then none of the errors by which the client
reports failures; a result is nothing or a time with a known offset. -/
def FailsIff (p : Prop) (r : Except Error (Option DateTime)) : Prop :=
  (p ∧ ∃ e, r = .error e ∧ e.isOwn = false) ∨
    (¬ p ∧ ∃ o, r = .ok o ∧ ∀ t, o = some t → t.offset ≠ none)

section Parse

variable {s : List Char} {now : DateTime}

theorem delayed_of_lt {n : Nat} (h : now.ticks + n * 1000000 < DateTime.tickCount) :
    delayed now n = .ok ⟨now.ticks + n * 1000000, now.offset⟩ := by
  have time : now.addMicroseconds? (n * 1000000) = some ⟨now.ticks + n * 1000000, now.offset⟩ := by
    unfold DateTime.addMicroseconds? DateTime.ofTicks?
    rw [if_pos (by omega)]
    congr 2
  rw [delayed_eq, time]
  rfl

theorem delayed_of_le {n : Nat} (h : DateTime.tickCount ≤ now.ticks + n * 1000000) :
    delayed now n = .error (.plain .outOfRange "delay too long") := by
  have none : now.addMicroseconds? (n * 1000000) = none := by
    unfold DateTime.addMicroseconds? DateTime.ofTicks?
    rw [if_neg (by omega)]
  rw [delayed_eq, none]
  rfl

theorem failsIff_delayText (known : now.offset ≠ none) (ne : s ≠ []) :
    FailsIff (Endless s now) (delayText now s) := by
  unfold delayText Endless
  by_cases long : maxDigits < s.length
  · rw [if_pos long]
    exact .inl ⟨.inl long, _, rfl, rfl⟩
  · rw [if_neg long]
    cases hn : Digit.number? s with
    | none => exact .inl ⟨.inr (.inl ((Digit.number?_eq_none_iff ne).mp hn)), _, rfl, rfl⟩
    | some n =>
      have valued : ¬ ∃ c ∈ s, Digit.value? c = none := by
        rw [← Digit.number?_eq_none_iff ne, hn]
        nofun
      dsimp only
      rcases Nat.lt_or_ge (now.ticks + n * 1000000) DateTime.tickCount with inside | beyond
      · rw [delayed_of_lt inside]
        refine .inr ⟨?_, _, rfl, ?_⟩
        · rintro (h | h | ⟨m, hm, h⟩)
          · exact long h
          · exact valued h
          · obtain rfl := Option.some.inj hm
            omega
        · rintro t ht
          obtain rfl := Option.some.inj ht
          exact known
      · rw [delayed_of_le beyond]
        exact .inl ⟨.inr (.inr ⟨n, rfl, beyond⟩), _, rfl, rfl⟩

theorem failsIff_dateText (s : List Char) :
    FailsIff (∃ f, MailDate.fields? s = some f ∧ f.Excessive) (dateText s) := by
  rw [FailsIff, ← MailDate.read_eq_excessive_iff]
  unfold dateText
  cases MailDate.read s with
  | time t => exact .inr ⟨nofun, _, rfl, fun u hu => by obtain rfl := Option.some.inj hu; nofun⟩
  | unreadable => exact .inr ⟨nofun, none, rfl, nofun⟩
  | excessive => exact .inl ⟨rfl, _, rfl, rfl⟩

/-- **A text is used or ignored, unless it is fatal.** -/
theorem failsIff_parse (text : String) (known : now.offset ≠ none) :
    FailsIff (Fatal text now) (parse (.text text) now) := by
  have delay (s : List Char) : (!s.isEmpty && s.all Digit.isDigit) = true ↔ IsDelay s := by
    simp [IsDelay]
  simp only [parse, parseText, Fatal]
  generalize Text.trim text.toList = s
  by_cases h : IsDelay s
  · rw [if_pos ((delay s).mpr h)]
    simpa only [h, true_and, not_true, false_and, or_false] using failsIff_delayText known h.1
  · rw [if_neg (mt (delay s).mp h)]
    simpa only [h, false_and, not_false_iff, true_and, false_or] using failsIff_dateText s

end Parse

end RetryAfter

end AcmeClient
