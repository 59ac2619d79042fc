import Mathlib.Algebra.Group.Nat.Defs
import Mathlib.Data.List.Induction
import AcmeClient.Proofs.Json.Numbers
import AcmeClient.Proofs.Time.Calendar
import AcmeClient.Time.Notation

/-!
# Reading what is written

* `Digit.padded`: a number in a given number of digits;
* `Digit.asciiNumber?_padded`: it is read back;
* **`Notation.date?_dateText`**, **`Notation.clockFields?_clockText`**: dates and times of day are
  read back, a fraction of six digits included;
* **`Notation.read?_written`**: a date, any separator, a time of day and an offset are read back.
-/

namespace AcmeClient

namespace Digit

variable {w n : Nat} {s t : List Char} {c : Char}

/-- The characters are ASCII digits. -/
def AllAscii (s : List Char) : Prop :=
  ∀ c ∈ s, (ascii? c).isSome = true

instance (s : List Char) : Decidable (AllAscii s) :=
  List.decidableBAll (fun c => (ascii? c).isSome = true) s

theorem AllAscii.append (hs : AllAscii s) (ht : AllAscii t) : AllAscii (s ++ t) := by
  intro c hc
  rcases List.mem_append.mp hc with hc | hc
  · exact hs c hc
  · exact ht c hc

@[simp] theorem natOf_nil : natOf [] = 0 :=
  rfl

theorem natOf_concat (s : List Char) (c : Char) :
    natOf (s ++ [c]) = natOf s * 10 + (ascii? c).getD 0 := by
  rw [natOf, List.map_append, List.map_singleton, number_concat]
  rfl

theorem asciiNumber?_eq (hs : AllAscii s) (ne : s ≠ []) : asciiNumber? s = some (natOf s) := by
  have values : s.mapM ascii? = some (s.map fun c => (ascii? c).getD 0) := by
    clear ne
    induction s with
    | nil => rfl
    | cons c s ih =>
      obtain ⟨d, hd⟩ := Option.isSome_iff_exists.mp (hs c List.mem_cons_self)
      rw [List.mapM_cons, hd, ih fun c hc => hs c (List.mem_cons_of_mem _ hc)]
      simp [hd]
  rw [asciiNumber?, if_neg (by simpa using ne), values]
  rfl

theorem natOf_append (s t : List Char) : natOf (s ++ t) = natOf s * 10 ^ t.length + natOf t := by
  induction t using List.reverseRecOn with
  | nil => simp [natOf, number]
  | append_singleton t c ih =>
    rw [← List.append_assoc, natOf_concat, ih, natOf_concat, List.length_append,
      List.length_singleton, Nat.pow_succ, Nat.add_mul, Nat.mul_assoc, Nat.add_assoc]

theorem getD_ascii?_lt (c : Char) : (ascii? c).getD 0 < 10 := by
  cases h : ascii? c with
  | none => decide
  | some d =>
    have small : ∀ e ∈ ascii? c, e < 10 := by
      refine @of_ascii? (fun c => ∀ e ∈ ascii? c, e < 10) (by decide) c ?_
      rw [h]
      rfl
    exact small d h

theorem natOf_lt (s : List Char) : natOf s < 10 ^ s.length := by
  induction s using List.reverseRecOn with
  | nil => decide
  | append_singleton s c ih =>
    have := getD_ascii?_lt c
    rw [natOf_concat, List.length_append, List.length_singleton, Nat.pow_succ]
    omega

/-! ## Numbers of a given width -/

/-- A number in a given number of digits; further digits in front are left out. -/
def padded : Nat → Nat → List Char
  | 0, _ => []
  | w + 1, n => padded w (n / 10) ++ [Nat.digitChar (n % 10)]

@[simp] theorem length_padded : (padded w n).length = w := by
  induction w generalizing n with
  | zero => rfl
  | succ w ih => rw [padded, List.length_append, ih, List.length_singleton]

theorem ascii?_digitChar_mod (n : Nat) : ascii? (Nat.digitChar (n % 10)) = some (n % 10) :=
  ascii?_digitChar _ (Nat.mod_lt n (by decide))

theorem allAscii_padded : AllAscii (padded w n) := by
  induction w generalizing n with
  | zero => exact nofun
  | succ w ih =>
    refine ih.append fun c hc => ?_
    rw [List.mem_singleton.mp hc, ascii?_digitChar_mod]
    rfl

theorem natOf_padded (h : n < 10 ^ w) : natOf (padded w n) = n := by
  induction w generalizing n with
  | zero =>
    obtain rfl : n = 0 := by simpa using h
    rfl
  | succ w ih =>
    rw [Nat.pow_succ, Nat.mul_comm] at h
    rw [padded, natOf_concat, ascii?_digitChar_mod, Option.getD_some, ih (Nat.div_lt_of_lt_mul h)]
    omega

/-- A number is read back from its digits. -/
theorem asciiNumber?_padded (hw : 0 < w) (h : n < 10 ^ w) : asciiNumber? (padded w n) = some n := by
  rw [asciiNumber?_eq allAscii_padded, natOf_padded h]
  exact List.ne_nil_of_length_pos (length_padded.symm ▸ hw)

theorem ne_of_ascii? {d : Char} (hc : (ascii? c).isSome = true) (hd : ascii? d = none) : c ≠ d := by
  rintro rfl
  rw [hd] at hc
  cases hc

theorem padded_two (n : Nat) : ∃ a b, padded 2 n = [a, b] ∧ (ascii? a).isSome = true ∧
    (ascii? b).isSome = true := by
  have all := @allAscii_padded 2 n
  exact ⟨_, _, rfl, all _ List.mem_cons_self, all _ (List.mem_cons_of_mem _ List.mem_cons_self)⟩

end Digit

namespace Notation

open Digit (padded asciiNumber? asciiNumber?_padded)

/-! ## Dates -/

/-- A date with hyphens. -/
def dateText (d : Calendar.Date) : List Char :=
  padded 4 d.year ++ '-' :: padded 2 d.month ++ '-' :: padded 2 d.day

theorem length_dateText (d : Calendar.Date) : (dateText d).length = 10 := by
  simp [dateText]

theorem date?_dateText {d : Calendar.Date} (hy : d.year < 10000) (hm : d.month < 100)
    (hd : d.day < 100) : date? (dateText d) = some d := by
  have year := @asciiNumber?_padded 4 d.year (by decide) hy
  have month := @asciiNumber?_padded 2 d.month (by decide) hm
  have day := @asciiNumber?_padded 2 d.day (by decide) hd
  unfold date? dateText
  rw [List.append_assoc, List.take_left' Digit.length_padded, List.drop_left' Digit.length_padded,
    year]
  obtain ⟨a, b, hab, ha, -⟩ := Digit.padded_two d.month
  obtain ⟨e, f, hef, -, -⟩ := Digit.padded_two d.day
  rw [hab] at month ⊢
  rw [hef] at day ⊢
  have letter : a ≠ 'W' := Digit.ne_of_ascii? ha rfl
  simp [letter, month, day]

/-! ## Times of day -/

/-- A time of day with colons. -/
def clockText (h m s : Nat) : List Char :=
  padded 2 h ++ ':' :: padded 2 m ++ ':' :: padded 2 s

/-- A fraction behind a point, if there is one. -/
def fractionText (ds : List Char) : List Char :=
  if ds.isEmpty then [] else '.' :: ds

theorem fraction?_of_length {ds : List Char} (ascii : Digit.AllAscii ds) (length : ds.length = 6) :
    fraction? ds = some (Digit.natOf ds, []) := by
  have ne : ds ≠ [] := List.ne_nil_of_length_pos (by omega)
  simp [fraction?, length, Digit.asciiNumber?_eq ascii ne, List.take_of_length_le,
    List.drop_of_length_le]

/-- A time of day with colons is read back, with or without a fraction of six digits. -/
theorem clockFields?_clockText {h m s : Nat} {ds : List Char} (hh : h < 100) (hm : m < 100)
    (hs : s < 100) (ascii : Digit.AllAscii ds) (length : ds = [] ∨ ds.length = 6) :
    clockFields? (clockText h m s ++ fractionText ds) =
      some ⟨⟨h, m, s, Digit.natOf ds⟩, false⟩ := by
  have hour := @asciiNumber?_padded 2 h (by decide) hh
  have minute := @asciiNumber?_padded 2 m (by decide) hm
  have second := @asciiNumber?_padded 2 s (by decide) hs
  obtain ⟨h1, h2, hs1, -, -⟩ := Digit.padded_two h
  obtain ⟨m1, m2, ms, -, -⟩ := Digit.padded_two m
  obtain ⟨s1, s2, ss, -, -⟩ := Digit.padded_two s
  rw [hs1] at hour
  rw [ms] at minute
  rw [ss] at second
  unfold clockText
  rw [hs1, ms, ss]
  rcases ds with _ | ⟨d, ds⟩
  · simp [clockFields?, follow?, fractionText, hour, minute, second]
  · have six : (d :: ds).length = 6 := by simpa using length
    have fraction := fraction?_of_length ascii six
    simp [clockFields?, follow?, fractionText, hour, minute, second, withFraction?, fraction]

/-- Hours and minutes, with or without a colon. -/
def minutesText (colon : Bool) (h m : Nat) : List Char :=
  padded 2 h ++ (if colon then [':'] else []) ++ padded 2 m

theorem clockFields?_minutesText {h m : Nat} (colon : Bool) (hh : h < 100) (hm : m < 100) :
    clockFields? (minutesText colon h m) = some ⟨⟨h, m, 0, 0⟩, false⟩ := by
  have hour := @asciiNumber?_padded 2 h (by decide) hh
  have minute := @asciiNumber?_padded 2 m (by decide) hm
  obtain ⟨h1, h2, hs, -, -⟩ := Digit.padded_two h
  obtain ⟨m1, m2, ms, digit, -⟩ := Digit.padded_two m
  rw [hs] at hour
  rw [ms] at minute
  unfold minutesText
  rw [hs, ms]
  have mark : m1 ≠ ':' ∧ m1 ≠ '.' ∧ m1 ≠ ',' :=
    ⟨Digit.ne_of_ascii? digit rfl, Digit.ne_of_ascii? digit rfl, Digit.ne_of_ascii? digit rfl⟩
  cases colon
  · simp [clockFields?, follow?, hour, minute, mark]
  · simp [clockFields?, follow?, hour, minute]

/-! ## Offsets -/

/-- The sign of an offset; a clock behind UTC has a hyphen. -/
def sign (behind : Bool) : Char :=
  if behind then '-' else '+'

/-- Hours and minutes ahead of UTC or behind, in seconds. -/
def seconds (behind : Bool) (h m : Nat) : Int :=
  let n := (h * 60 + m) * 60
  if behind then -(n : Int) else n

theorem offset?_minutesText {h m : Nat} (behind colon : Bool) (hh : h < 24) (hm : m < 60) :
    offset? (sign behind :: minutesText colon h m) = some (seconds behind h m) := by
  have fields := clockFields?_minutesText colon (by omega : h < 100) (by omega : m < 100)
  have less : ¬ 86400 ≤ (h * 60 + m) * 60 := by omega
  cases behind <;> simp [offset?, sign, seconds, fields, less]

theorem mem_clockText {h m s : Nat} {ds : List Char} (ascii : Digit.AllAscii ds) :
    ∀ c ∈ clockText h m s ++ fractionText ds,
      (Digit.ascii? c).isSome = true ∨ c = ':' ∨ c = '.' := by
  have fraction : ∀ c ∈ fractionText ds, (Digit.ascii? c).isSome = true ∨ c = '.' := by
    intro c hc
    unfold fractionText at hc
    split_ifs at hc
    · cases hc
    · exact (List.mem_cons.mp hc).symm.imp_left (ascii c)
  intro c hc
  have digits (n : Nat) (h : c ∈ padded 2 n) := Digit.allAscii_padded c h
  simp only [clockText, List.mem_append, List.mem_cons] at hc
  rcases hc with ((hc | rfl | hc) | rfl | hc) | hc
  · exact .inl (digits h hc)
  · exact .inr (.inl rfl)
  · exact .inl (digits m hc)
  · exact .inr (.inl rfl)
  · exact .inl (digits s hc)
  · exact (fraction c hc).imp_right .inr

theorem clock?_clockText {h m s h' m' : Nat} {ds : List Char} (behind colon : Bool) (hh : h < 100)
    (hm : m < 100) (hs : s < 100) (ascii : Digit.AllAscii ds) (length : ds = [] ∨ ds.length = 6)
    (hh' : h' < 24) (hm' : m' < 60) :
    clock? (clockText h m s ++ fractionText ds ++ sign behind :: minutesText colon h' m') =
      some (⟨h, m, s, Digit.natOf ds⟩, some (seconds behind h' m')) := by
  have inside : ∀ c ∈ clockText h m s ++ fractionText ds, (!startsOffset c) = true := by
    intro c hc
    rcases mem_clockText ascii c hc with hc | rfl | rfl
    · refine @Digit.of_ascii? (fun c => (!startsOffset c) = true) (by decide) c hc
    · rfl
    · rfl
  have starts : startsOffset (sign behind) = true := by
    cases behind <;> rfl
  unfold clock?
  rw [List.takeWhile_append_of_pos inside, List.dropWhile_append_of_pos inside,
    List.takeWhile_cons_of_neg (by simp [starts]), List.dropWhile_cons_of_neg (by simp [starts]),
    List.append_nil, clockFields?_clockText hh hm hs ascii length, Option.bind_eq_bind,
    Option.bind_some]
  dsimp only
  rw [offset?_minutesText behind colon hh' hm']
  rfl

/-! ## Points in time -/

theorem dateLength_dateText (d : Calendar.Date) (s : List Char) :
    dateLength (dateText d ++ s) = 10 := by
  obtain ⟨a, b, hab, ha, -⟩ := Digit.padded_two d.month
  have long : (dateText d ++ s).length ≠ 7 := by
    rw [List.length_append, length_dateText]
    omega
  have hyphen : (dateText d ++ s)[4]? = some '-' := by
    simp [dateText]
  have digit : (dateText d ++ s)[5]? = some a := by
    simp [dateText, List.getElem?_append, hab]
  have letter : a ≠ 'W' := Digit.ne_of_ascii? ha rfl
  rw [dateLength, if_neg long, if_pos hyphen, digit, if_neg (by simpa using letter)]

/-- **A point in time is read back**: a date, a separator, a time of day and an offset. -/
theorem read?_written {d : Calendar.Date} {h m s h' m' : Nat} {ds : List Char} (separator : Char)
    (behind colon : Bool) (hd : d.Valid) (hh : h < 24) (hm : m < 60) (hs : s < 60)
    (ascii : Digit.AllAscii ds) (length : ds = [] ∨ ds.length = 6) (hh' : h' < 24) (hm' : m' < 60) :
    read? (dateText d ++ separator ::
        (clockText h m s ++ fractionText ds ++ sign behind :: minutesText colon h' m')) =
      DateTime.ofFields? d ⟨h, m, s, Digit.natOf ds⟩ (some (seconds behind h' m')) := by
  have read := clock?_clockText behind colon (by omega : h < 100) (by omega : m < 100)
    (by omega : s < 100) ascii length hh' hm'
  have date : date? (dateText d) = some d := by
    obtain ⟨-, hy, -, hmonth, -, hday⟩ := hd
    have most := Calendar.daysInMonth_le d.year d.month
    exact date?_dateText (by omega) (by omega) (by omega)
  unfold read?
  rw [dateLength_dateText]
  dsimp only
  rw [List.take_left' (length_dateText d), date, Option.bind_eq_bind, Option.bind_some, if_neg]
  · have rest : (dateText d ++ separator ::
        (clockText h m s ++ fractionText ds ++ sign behind :: minutesText colon h' m')).drop (10 + 1) =
          clockText h m s ++ fractionText ds ++ sign behind :: minutesText colon h' m' := by
      rw [← List.drop_drop, List.drop_left' (length_dateText d)]
      rfl
    rw [rest, read]
    rfl
  · simp only [List.length_append, List.length_cons, length_dateText]
    omega

end Notation

end AcmeClient
