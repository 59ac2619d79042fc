import AcmeClient.Proofs.Text.Scanning
import AcmeClient.Proofs.Time.Notation
import AcmeClient.Time.Timestamp

/-!
# Reading timestamps

* `Timestamp.Written`: a date, a separator, a time of day, a fraction of a second of any length and
  an offset, as they are written down, and `Timestamp.Written.instant`, the instant they stand for;
* `Timestamp.natOf_sixDigits`: the fraction in whole microseconds;
* **`Timestamp.Written.split?_text`**: what is written is split in the right places;
* **`Timestamp.Written.parse_exact`**: it is read exactly;
* `Timestamp.Outlying`, `Timestamp.Written.outlying_iff`: what is written but not read, as its
  instant is not representable.
-/

namespace AcmeClient

namespace Timestamp

open Notation (dateText clockText fractionText minutesText sign seconds)

/-! ## What is written -/

/-- An offset as it is written. -/
inductive Zone where
  | absent
  | letter (small : Bool)
  | offset (behind colon : Bool) (hours minutes : Nat)
deriving DecidableEq

namespace Zone

/-- The characters of an offset. -/
def text : Zone → List Char
  | absent => []
  | letter small => [if small then 'z' else 'Z']
  | offset behind colon h m => sign behind :: minutesText colon h m

/-- The seconds by which the clock is ahead of UTC. -/
def ahead : Zone → Int
  | absent => 0
  | letter _ => 0
  | offset behind _ h m => seconds behind h m

/-- The hours and minutes exist. -/
def Valid : Zone → Prop
  | offset _ _ h m => h < 24 ∧ m < 60
  | _ => True

instance (z : Zone) : Decidable z.Valid := by
  cases z <;> (unfold Valid; infer_instance)

/-- The offset in numbers. -/
def numeric : Zone → Zone
  | offset behind colon h m => offset behind colon h m
  | _ => offset false true 0 0

end Zone

/-- A point in time as it is written. -/
structure Written where
  date : Calendar.Date
  separator : Char
  hour : Nat
  minute : Nat
  second : Nat
  /-- The digits behind the point; there is no point if there are none. -/
  fraction : List Char
  zone : Zone

namespace Written

/-- The characters without blanks around them. -/
def text (w : Written) : List Char :=
  dateText w.date ++ w.separator ::
    (clockText w.hour w.minute w.second ++ fractionText w.fraction ++ w.zone.text)

/-- The text is this, with blanks around it. -/
def Spells (w : Written) (s : String) : Prop :=
  ∃ pre post : List Char, (∀ c ∈ pre, Char.isBlank c = true) ∧
    (∀ c ∈ post, Char.isBlank c = true) ∧ s = String.ofList (pre ++ w.text ++ post)

/-- The whole microseconds of the fraction. -/
def microsecond (w : Written) : Nat :=
  Digit.natOf w.fraction * 10 ^ 6 / 10 ^ w.fraction.length

/-- The time of day. -/
def clock (w : Written) : DateTime.Clock :=
  ⟨w.hour, w.minute, w.second, w.microsecond⟩

/-- The date and the time of day exist, the separator is a letter T or a space, and the fraction has
ASCII digits. -/
def Valid (w : Written) : Prop :=
  w.date.Valid ∧ w.separator ∈ ['T', 't', ' '] ∧ w.hour < 24 ∧ w.minute < 60 ∧ w.second < 60 ∧
    Digit.AllAscii w.fraction ∧ w.zone.Valid

instance (w : Written) : Decidable w.Valid := by
  unfold Valid
  infer_instance

/-- The instant in microseconds of the UTC clock. -/
def instant (w : Written) : Int :=
  (Calendar.dayNumber w.date * DateTime.dayTicks + w.clock.ticks : Nat) - w.zone.ahead * 1000000

end Written

/-! ## Fractions -/

theorem allAscii_sixDigits {ds : List Char} (h : Digit.AllAscii ds) :
    Digit.AllAscii (sixDigits ds) := by
  refine Digit.AllAscii.append (fun c hc => h c (List.mem_of_mem_take hc)) fun c hc => ?_
  rw [List.eq_of_mem_replicate hc]
  rfl

theorem length_sixDigits (ds : List Char) : (sixDigits ds).length = 6 := by
  rw [sixDigits, List.length_append, List.length_take, List.length_replicate]
  omega

theorem natOf_zeros (n : Nat) : Digit.natOf (List.replicate n '0') = 0 := by
  induction n with
  | zero => rfl
  | succ n ih =>
    rw [List.replicate_succ', Digit.natOf_concat, ih]
    rfl

/-- Six digits are the fraction in whole microseconds. -/
theorem natOf_sixDigits (ds : List Char) :
    Digit.natOf (sixDigits ds) = Digit.natOf ds * 10 ^ 6 / 10 ^ ds.length := by
  unfold sixDigits
  rcases Nat.le_total ds.length 6 with short | long
  · rw [List.take_of_length_le short, Digit.natOf_append, natOf_zeros, List.length_replicate,
      Nat.add_zero]
    symm
    apply Nat.div_eq_of_eq_mul_left (Nat.pow_pos (by decide))
    rw [Nat.mul_assoc, ← Nat.pow_add, Nat.sub_add_cancel short]
  · rw [Nat.sub_eq_zero_of_le long, List.replicate_zero, List.append_nil]
    have split := Digit.natOf_append (ds.take 6) (ds.drop 6)
    have small := Digit.natOf_lt (ds.drop 6)
    rw [List.take_append_drop] at split
    rw [List.length_drop] at split small
    have pow : 10 ^ ds.length = 10 ^ 6 * 10 ^ (ds.length - 6) := by
      rw [← Nat.pow_add, Nat.add_sub_cancel' long]
    rw [pow, Nat.mul_comm _ (10 ^ 6), Nat.mul_div_mul_left _ _ (Nat.pow_pos (by decide)), split,
      Calendar.mul_add_div_of_lt small]

/-! ## Splitting -/

theorem isDecimal_of_ascii? {c : Char} (h : (Digit.ascii? c).isSome = true) : isDecimal c = true :=
  @Digit.of_ascii? (fun c => isDecimal c = true) (by decide) c h

theorem isZone_eq_false {c : Char} {s : List Char} (hc : (Digit.ascii? c).isSome = true ∨ c = ':') :
    isZone (c :: s) = false := by
  have other : c ≠ 'Z' ∧ c ≠ 'z' ∧ c ≠ '+' ∧ c ≠ '-' := by
    rcases hc with hc | rfl
    · exact ⟨Digit.ne_of_ascii? hc rfl, Digit.ne_of_ascii? hc rfl, Digit.ne_of_ascii? hc rfl,
        Digit.ne_of_ascii? hc rfl⟩
    · decide
  unfold isZone
  split
  case h_4 => rfl
  all_goals
    rename_i h
    obtain ⟨rfl, -⟩ := List.cons.inj h
    simp [other]

theorem Zone.isZone_text (z : Zone) (ne : z ≠ .absent) : isZone z.text = true := by
  cases z with
  | absent => exact absurd rfl ne
  | letter small => cases small <;> rfl
  | offset behind colon h m =>
    obtain ⟨a, b, hs, ha, hb⟩ := Digit.padded_two h
    obtain ⟨c, d, ms, hc, hd⟩ := Digit.padded_two m
    simp only [text, minutesText, hs, ms]
    cases colon <;> cases behind <;>
      simp [isZone, sign, isDecimal_of_ascii?, ha, hb, hc, hd]

theorem Zone.mem_text {z : Zone} {c : Char} (hc : c ∈ z.text) :
    (Digit.ascii? c).isSome = true ∨ c ∈ ['+', '-', ':', 'Z', 'z'] := by
  cases z with
  | absent => cases hc
  | letter small =>
    rw [List.mem_singleton.mp hc]
    cases small <;> decide
  | offset behind colon h m =>
    have digits (n : Nat) (h : c ∈ Digit.padded 2 n) := Digit.allAscii_padded c h
    simp only [text, minutesText, List.mem_cons, List.mem_append] at hc
    rcases hc with rfl | (hc | hc) | hc
    · cases behind <;> decide
    · exact .inl (digits h hc)
    · cases colon
      · cases hc
      · rw [List.mem_singleton.mp hc]
        decide
    · exact .inl (digits m hc)

theorem Zone.takeWhile_text (z : Zone) : z.text.takeWhile isDecimal = [] := by
  cases z with
  | absent => rfl
  | letter small => cases small <;> rfl
  | offset behind colon h m => cases behind <;> rfl

/-- The longest offset at the end is looked for among the last six characters. -/
theorem zoneLength_append {s t : List Char} (hs : s ≠ []) (ht : 6 ≤ t.length) :
    zoneLength (s ++ t) =
      (([6, 5, 1] : List Nat).find? fun n => isZone (t.drop (t.length - n))).getD 0 := by
  have some := List.length_pos_iff.mpr hs
  have last (n : Nat) (hn : n ≤ 6) :
      ((s ++ t).length > n && isZone ((s ++ t).drop ((s ++ t).length - n))) =
        isZone (t.drop (t.length - n)) := by
    have place : s.length + t.length - n = s.length + (t.length - n) := by omega
    rw [List.length_append, place, List.drop_length_add_append, decide_eq_true (by omega),
      Bool.true_and]
  unfold zoneLength
  simp only [List.find?_cons, List.find?_nil, last 6 (by decide), last 5 (by decide),
    last 1 (by decide)]

namespace Written

variable {w : Written}

/-- Date, separator and time of day. -/
def base (w : Written) : List Char :=
  dateText w.date ++ w.separator :: clockText w.hour w.minute w.second

theorem text_eq (w : Written) : w.text = w.base ++ (fractionText w.fraction ++ w.zone.text) := by
  simp [text, base]

/-- The parts of what is written. -/
def parts (w : Written) : Parts :=
  ⟨w.base, w.fraction, w.zone.text⟩

theorem zoneLength_base (w : Written) :
    zoneLength (w.base ++ w.zone.text) = w.zone.text.length := by
  obtain ⟨m1, m2, ms, hm1, hm2⟩ := Digit.padded_two w.minute
  obtain ⟨s1, s2, ss, hs1, hs2⟩ := Digit.padded_two w.second
  have split : w.base ++ w.zone.text =
      (dateText w.date ++ w.separator :: Digit.padded 2 w.hour) ++
        (':' :: m1 :: m2 :: ':' :: s1 :: s2 :: w.zone.text) := by
    simp [base, clockText, ms, ss]
  rw [split, zoneLength_append (by simp) (by simp)]
  cases w.zone with
  | absent => simp [Zone.text, isZone_eq_false, hm1, hs2]
  | letter small =>
    have zone : isZone [if small then 'z' else 'Z'] = true :=
      Zone.isZone_text (.letter small) (by simp)
    simp [Zone.text, isZone_eq_false, hm1, hm2, zone]
  | offset behind colon h m =>
    have zone := Zone.isZone_text (.offset behind colon h m) (by simp)
    obtain ⟨a, b, hs, -, -⟩ := Digit.padded_two h
    obtain ⟨c, d, ms, -, -⟩ := Digit.padded_two m
    simp only [Zone.text, minutesText, hs, ms] at zone ⊢
    cases colon with
    | false =>
      have zone : isZone [sign behind, a, b, c, d] = true := zone
      simp [isZone_eq_false, hs2, zone]
    | true =>
      have zone : isZone [sign behind, a, b, ':', c, d] = true := zone
      simp [zone]

theorem point_not_mem_base (h : w.Valid) : '.' ∉ w.base := by
  have digits {n k : Nat} : '.' ∉ Digit.padded n k := fun h =>
    absurd (Digit.allAscii_padded _ h) (by decide)
  have separator : '.' ≠ w.separator := by
    intro hs
    have letter := h.2.1
    rw [← hs] at letter
    exact absurd letter (by decide)
  simp [base, dateText, clockText, digits, separator]

/-- **What is written is split in the right places.** -/
theorem split?_text (h : w.Valid) : split? w.text = some w.parts := by
  have point := point_not_mem_base h
  obtain ⟨-, -, -, -, -, ascii, -⟩ := h
  have plain {s : List Char} (hs : '.' ∉ s) : ∀ c ∈ s, decide (c ≠ '.') = true := fun c hc =>
    decide_eq_true fun h => hs (h ▸ hc)
  have ne : w.base ≠ [] := by simp [base]
  rw [text_eq, parts]
  unfold fractionText
  cases hf : w.fraction with
  | nil =>
    have zone : '.' ∉ w.zone.text := fun h => absurd (Zone.mem_text h) (by decide)
    have whole : (w.base ++ w.zone.text).dropWhile (fun c => decide (c ≠ '.')) = [] := by
      rw [List.dropWhile_append_of_pos (plain point)]
      exact List.dropWhile_eq_nil_iff.mpr (plain zone)
    rw [List.isEmpty_nil, if_pos rfl, List.nil_append]
    unfold split?
    rw [whole]
    dsimp only
    rw [if_neg (by simp [ne]), zoneLength_base w, List.length_append, Nat.add_sub_cancel,
      List.take_left, List.drop_left]
  | cons d ds =>
    rw [hf] at ascii
    have digits : ∀ c ∈ d :: ds, isDecimal c = true := fun c hc => isDecimal_of_ascii? (ascii c hc)
    have zone : w.zone.text.isEmpty = true ∨ isZone w.zone.text = true := by
      by_cases absent : w.zone = .absent
      · exact .inl (by rw [absent]; rfl)
      · exact .inr (w.zone.isZone_text absent)
    have none := w.zone.takeWhile_text
    have all : w.zone.text.dropWhile isDecimal = w.zone.text := by
      have whole := @List.takeWhile_append_dropWhile _ isDecimal w.zone.text
      rwa [none] at whole
    rw [if_neg (by simp), List.cons_append]
    unfold split?
    rw [List.takeWhile_append_of_pos (plain point), List.dropWhile_append_of_pos (plain point),
      List.takeWhile_cons_of_neg (by simp), List.dropWhile_cons_of_neg (by simp), List.append_nil]
    dsimp only
    rw [List.takeWhile_append_of_pos digits, List.dropWhile_append_of_pos digits, none, all,
      List.append_nil, if_neg]
    rcases zone with zone | zone <;> simp [ne, zone]

end Written

/-! ## Reading -/

/-- The reading of the clock that a value stands for. -/
def reading? : Value → Option DateTime
  | .text s => (split? (Text.trim s.toList)).bind fun p => Notation.read? p.normal
  | _ => none

theorem parse_of_reading? {v : Value} {t : DateTime} (h : reading? v = some t) : parse v = toUtc t := by
  cases v with
  | text s =>
    obtain ⟨p, hp, ht⟩ := Option.bind_eq_some_iff.mp h
    simp only [parse, parseText, hp, ht]
  | _ => cases h

theorem Zone.numeric_eq (z : Zone) :
    (if z.text = [] ∨ z.text = ['Z'] ∨ z.text = ['z'] then "+00:00".toList else z.text) =
      z.numeric.text := by
  cases z with
  | absent => rfl
  | letter small => cases small <;> rfl
  | offset behind colon h m =>
    obtain ⟨a, b, hs, -, -⟩ := Digit.padded_two h
    exact if_neg (by simp [text, minutesText, hs])

theorem Zone.numeric_cases {z : Zone} (h : z.Valid) : ∃ behind colon hours minutes,
    hours < 24 ∧ minutes < 60 ∧ z.numeric = .offset behind colon hours minutes ∧
      z.ahead = seconds behind hours minutes := by
  cases z with
  | offset behind colon hours minutes => exact ⟨behind, colon, hours, minutes, h.1, h.2, rfl, rfl⟩
  | _ => exact ⟨false, true, 0, 0, by decide, by decide, rfl, rfl⟩

namespace Written

variable {w : Written} {s : String}

/-- The digits that are read of the fraction. -/
def micro (w : Written) : List Char :=
  if w.fraction.isEmpty then [] else sixDigits w.fraction

theorem normal_parts (w : Written) : w.parts.normal =
    dateText w.date ++ w.separator ::
      (clockText w.hour w.minute w.second ++ fractionText w.micro ++ w.zone.numeric.text) := by
  have fraction : (if w.fraction.isEmpty then [] else '.' :: sixDigits w.fraction) =
      fractionText w.micro := by
    unfold micro fractionText
    cases w.fraction with
    | nil => rfl
    | cons d ds =>
      have some : sixDigits (d :: ds) ≠ [] :=
        List.ne_nil_of_length_pos (by rw [length_sixDigits]; decide)
      simp [some]
  unfold Parts.normal parts
  dsimp only
  rw [w.zone.numeric_eq, fraction]
  simp [base]

theorem allAscii_micro (h : Digit.AllAscii w.fraction) : Digit.AllAscii w.micro := by
  unfold micro
  split_ifs
  · exact nofun
  · exact allAscii_sixDigits h

theorem length_micro (w : Written) : w.micro = [] ∨ w.micro.length = 6 := by
  unfold micro
  split_ifs
  · exact .inl rfl
  · exact .inr (length_sixDigits _)

theorem natOf_micro (w : Written) : Digit.natOf w.micro = w.microsecond := by
  unfold micro microsecond
  split_ifs with none
  · rw [List.isEmpty_iff.mp none]
    rfl
  · exact natOf_sixDigits w.fraction

theorem microsecond_lt (w : Written) : w.microsecond < 1000000 := by
  rw [← natOf_micro]
  have small := Digit.natOf_lt w.micro
  rcases w.length_micro with none | six
  · rw [none]
    decide
  · rwa [six] at small

theorem clock_valid (h : w.Valid) : w.clock.Valid := by
  obtain ⟨-, -, hour, minute, second, -, -⟩ := h
  exact ⟨hour, minute, second, w.microsecond_lt⟩

/-- The reading of the clock that is written. -/
def reading (w : Written) : DateTime :=
  ⟨Calendar.dayNumber w.date * DateTime.dayTicks + w.clock.ticks, some (w.zone.ahead * 1000000)⟩

theorem ofFields?_reading (h : w.Valid) :
    DateTime.ofFields? w.date w.clock (some w.zone.ahead) = some w.reading :=
  DateTime.ofFields?_eq h.1 (clock_valid h)

theorem read?_normal (h : w.Valid) : Notation.read? w.parts.normal = some w.reading := by
  rw [← ofFields?_reading h]
  obtain ⟨date, -, hour, minute, second, ascii, zone⟩ := h
  obtain ⟨behind, colon, hours, minutes, hh, hm, numeric, ahead⟩ := Zone.numeric_cases zone
  rw [normal_parts, numeric, ahead, clock, ← natOf_micro]
  exact Notation.read?_written w.separator behind colon date hour minute second
    (allAscii_micro ascii) w.length_micro hh hm

/-! ## Blanks around it -/

theorem isBlank_of_ascii? {c : Char} (h : (Digit.ascii? c).isSome = true) : ¬ Char.isBlank c = true :=
  @Digit.of_ascii? (fun c => ¬ Char.isBlank c = true) (by decide) c h

theorem trim_of_spells (h : w.Valid) (spells : w.Spells s) : Text.trim s.toList = w.text := by
  obtain ⟨-, -, -, -, -, ascii, -⟩ := h
  obtain ⟨pre, post, before, behind, rfl⟩ := spells
  have marks {c : Char} (hc : c ∈ ['+', '-', ':', 'Z', 'z', '.']) : ¬ Char.isBlank c = true := by
    have all : ['+', '-', ':', 'Z', 'z', '.'].all (!Char.isBlank ·) = true := rfl
    simpa using List.all_eq_true.mp all c hc
  have year : Digit.padded 4 w.date.year ≠ [] := List.ne_nil_of_length_pos (by simp)
  have time : clockText w.hour w.minute w.second ++ fractionText w.fraction ++ w.zone.text ≠ [] := by
    simp [clockText]
  rw [String.toList_ofList]
  refine Text.strip_between (by simp [text]) before behind ?_ ?_
  · intro c hc
    unfold text dateText at hc
    rw [List.append_assoc, List.append_assoc, List.head?_append_of_ne_nil _ year] at hc
    exact isBlank_of_ascii? (Digit.allAscii_padded c (List.mem_of_mem_head? hc))
  · intro c hc
    unfold text at hc
    rw [List.getLast?_append_of_ne_nil _ (List.cons_ne_nil _ _),
      List.getLast?_cons_of_ne_nil time] at hc
    rcases List.mem_append.mp (List.mem_of_getLast? hc) with hc | hc
    · rcases Notation.mem_clockText ascii c hc with hc | rfl | rfl
      · exact isBlank_of_ascii? hc
      · exact marks (by decide)
      · exact marks (by decide)
    · rcases Zone.mem_text hc with hc | hc
      · exact isBlank_of_ascii? hc
      · exact marks (List.mem_append_left ['.'] hc)

theorem reading?_of_spells (h : w.Valid) (spells : w.Spells s) :
    reading? (.text s) = some w.reading := by
  rw [reading?, trim_of_spells h spells, split?_text h, Option.bind_some, read?_normal h]

theorem parse_of_spells (h : w.Valid) (range : 0 ≤ w.instant ∧ w.instant < DateTime.tickCount)
    (spells : w.Spells s) : parse (.text s) = .ok ⟨w.instant.toNat, some 0⟩ := by
  have same : w.reading.toUtc? = some ⟨w.instant.toNat, some 0⟩ := if_pos range
  rw [parse_of_reading? (reading?_of_spells h spells)]
  dsimp only [toUtc, reading] at same ⊢
  rw [same]

/-- **Timestamps are read exactly.** Whatever blanks are around it, a written point in time whose
instant is representable is read as the same instant on the UTC clock as that of a clock that shows
the written date and time of day and is ahead of UTC by the written offset; the fraction counts in
whole microseconds. All that is written of one instant is read alike. -/
theorem parse_exact (valid : w.Valid)
    (range : 0 ≤ w.instant ∧ w.instant < DateTime.tickCount) :
    ∃ t u : DateTime, t.date = w.date ∧ t.clock = w.clock ∧
      t.offset = some (w.zone.ahead * 1000000) ∧ t.instant = w.instant ∧
      t.toUtc? = some u ∧ u.offset = some 0 ∧
      (∀ s, w.Spells s → parse (.text s) = .ok u) ∧
      ∀ (v : Written) (s : String), v.Valid → v.instant = w.instant → v.Spells s →
        parse (.text s) = .ok u := by
  have fields := ofFields?_reading valid
  refine ⟨w.reading, ⟨w.instant.toNat, some 0⟩, DateTime.date_ofFields? fields,
    DateTime.clock_ofFields? fields, rfl, rfl, if_pos range, rfl, fun s => parse_of_spells valid range,
    fun v s hv same spells => ?_⟩
  rw [← same] at range ⊢
  exact parse_of_spells hv range spells

/-- The end of a leap day on a clock behind UTC. -/
def leapDay : Written :=
  ⟨⟨2024, 2, 29⟩, 't', 23, 59, 59, "1234567".toList, .offset true false 23 59⟩

/-- The same instant on a clock ahead of UTC. -/
def leapMarch : Written :=
  ⟨⟨2024, 3, 2⟩, ' ', 0, 28, 59, "123456".toList, .offset false true 0 30⟩

theorem parse_exact_leapDay :
    leapDay.Valid ∧ (0 ≤ leapDay.instant ∧ leapDay.instant < DateTime.tickCount) ∧
      ∃ u : DateTime, u.date = ⟨2024, 3, 1⟩ ∧ u.clock = ⟨23, 58, 59, 123456⟩ ∧
        parse (.text " 2024-02-29t23:59:59.1234567-2359\n") = .ok u ∧
        parse (.text "2024-03-02 00:28:59.123456+00:30") = .ok u := by
  have valid : leapDay.Valid := by decide
  have range : 0 ≤ leapDay.instant ∧ leapDay.instant < DateTime.tickCount := by decide
  obtain ⟨t, u, -, -, -, instant, utc, -, exact, same⟩ := parse_exact valid range
  have moment : u = ⟨63844934339123456, some 0⟩ := by
    unfold DateTime.toUtc? at utc
    rw [instant] at utc
    exact Option.some.inj (utc.symm.trans rfl)
  have blanks : leapDay.Spells " 2024-02-29t23:59:59.1234567-2359\n" :=
    ⟨[' '], ['\n'], List.forall_mem_singleton.mpr rfl, List.forall_mem_singleton.mpr rfl, rfl⟩
  refine ⟨valid, range, u, ?_, ?_, exact _ blanks,
    same leapMarch _ (by decide) (by decide) ⟨[], [], nofun, nofun, rfl⟩⟩
  · rw [moment]
    rfl
  · rw [moment]
    rfl

end Written

/-! ## Instants that are not representable -/

/-- A timestamp that is read, but whose instant on the UTC clock is not representable. -/
def Outlying (v : Value) : Prop :=
  ∃ t, reading? v = some t ∧ t.offset ≠ none ∧ ¬ (0 ≤ t.instant ∧ t.instant < DateTime.tickCount)

/-- What is written is outlying exactly if its instant is not representable. -/
theorem Written.outlying_iff {w : Written} {s : String} (h : w.Valid) (spells : w.Spells s) :
    Outlying (.text s) ↔ ¬ (0 ≤ w.instant ∧ w.instant < DateTime.tickCount) := by
  have read := Written.reading?_of_spells h spells
  constructor
  · rintro ⟨t, ht, -, far⟩
    obtain rfl := Option.some.inj (read.symm.trans ht)
    exact far
  · exact fun far => ⟨w.reading, read, nofun, far⟩

end Timestamp

end AcmeClient
