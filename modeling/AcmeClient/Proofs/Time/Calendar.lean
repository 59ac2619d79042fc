import AcmeClient.Time.DateTime
import Mathlib.Data.Nat.Init
import Mathlib.Tactic.SplitIfs

/-!
# Dates and their numbers

* `Calendar.daysBeforeYear_succ`, `Calendar.daysBeforeMonth_succ`: a year begins when the one before
  is over, and so does a month;
* **`Calendar.dayNumber_next`**: days are numbered one after the other;
* `Calendar.monthAndDay_eq`, `Calendar.ofDayNumber_eq`: months are found by counting off their days,
  and years by counting off cycles;
* **`Calendar.ofDayNumber_dayNumber`**: a date is found from its number;
* **`Calendar.dayNumber_ofDayNumber`**: every number up to the last day is that of a date;
* `DateTime.date_ofFields?`, `DateTime.clock_ofFields?`: a reading shows the fields that it is made
  from;
* **`DateTime.ofFields?_shown`**: a reading is made from the fields that it shows.
-/

namespace AcmeClient

namespace Calendar

/-! ## Days of years and months -/

/-- The number of days of a year. -/
def daysInYear (y : Nat) : Nat :=
  if isLeap y then 366 else 365

theorem daysBeforeYear_eq (y : Nat) : daysBeforeYear y =
    (y - 1) * 365 + (y - 1) / 4 - (y - 1) / 100 + (y - 1) / 400 :=
  rfl

theorem isLeap_iff (y : Nat) : isLeap y = true ↔ y % 4 = 0 ∧ (y % 100 ≠ 0 ∨ y % 400 = 0) := by
  simp [isLeap]

/-- A year begins when the one before is over. -/
theorem daysBeforeYear_succ {y : Nat} (h : 1 ≤ y) :
    daysBeforeYear (y + 1) = daysBeforeYear y + daysInYear y := by
  obtain ⟨z, rfl⟩ := Nat.exists_eq_add_of_le' h
  rw [daysBeforeYear_eq, daysBeforeYear_eq, Nat.add_sub_cancel, Nat.add_sub_cancel]
  have fewer : z / 100 ≤ z / 4 := by omega
  have leap := isLeap_iff (z + 1)
  have by4 : (z + 1) / 4 = z / 4 + if (z + 1) % 4 = 0 then 1 else 0 := by split_ifs <;> omega
  have by100 : (z + 1) / 100 = z / 100 + if (z + 1) % 100 = 0 then 1 else 0 := by
    split_ifs <;> omega
  have by400 : (z + 1) / 400 = z / 400 + if (z + 1) % 400 = 0 then 1 else 0 := by
    split_ifs <;> omega
  have h4 : (z + 1) % 100 = 0 → (z + 1) % 4 = 0 := by omega
  have h100 : (z + 1) % 400 = 0 → (z + 1) % 100 = 0 := by omega
  rw [by4, by100, by400, daysInYear]
  -- the years from the rarest kind to the most frequent one
  by_cases d400 : (z + 1) % 400 = 0
  · have d100 := h100 d400
    have d4 := h4 d100
    rw [if_pos d4, if_pos d100, if_pos d400, if_pos (leap.mpr ⟨d4, .inr d400⟩)]
    omega
  by_cases d100 : (z + 1) % 100 = 0
  · have d4 := h4 d100
    have common : ¬ isLeap (z + 1) = true := fun h => (leap.mp h).2.elim (· d100) d400
    rw [if_pos d4, if_pos d100, if_neg d400, if_neg common]
    omega
  by_cases d4 : (z + 1) % 4 = 0
  · rw [if_pos d4, if_neg d100, if_neg d400, if_pos (leap.mpr ⟨d4, .inl d100⟩)]
    omega
  · rw [if_neg d4, if_neg d100, if_neg d400, if_neg fun h => d4 (leap.mp h).1]
    omega

/-- A month begins when the one before is over. -/
theorem daysBeforeMonth_succ (y : Nat) {m : Nat} (h : 1 ≤ m) :
    daysBeforeMonth y (m + 1) = daysBeforeMonth y m + daysInMonth y m := by
  obtain ⟨m, rfl⟩ := Nat.exists_eq_add_of_le' h
  rfl

theorem daysBeforeMonth_mono (y : Nat) {m k : Nat} (hm : 1 ≤ m) (h : m ≤ k) :
    daysBeforeMonth y m ≤ daysBeforeMonth y k := by
  induction k, h using Nat.le_induction with
  | base => exact Nat.le_refl _
  | succ k hk ih =>
    rw [daysBeforeMonth_succ y (Nat.le_trans hm hk)]
    omega

theorem daysBeforeMonth_end (y : Nat) : daysBeforeMonth y (12 + 1) = daysInYear y := by
  unfold daysInYear
  cases hy : isLeap y <;> simp [daysBeforeMonth, daysInMonth, hy]

/-! ## Counting days -/

/-- The day after. -/
def Date.next (d : Date) : Date :=
  if d.day < daysInMonth d.year d.month then ⟨d.year, d.month, d.day + 1⟩
  else if d.month < 12 then ⟨d.year, d.month + 1, 1⟩
  else ⟨d.year + 1, 1, 1⟩

/-- **Days are numbered one after the other.** -/
theorem dayNumber_next {d : Date} (h : d.Valid) : dayNumber d.next = dayNumber d + 1 := by
  obtain ⟨y, m, n⟩ := d
  obtain ⟨hy, -, hm, hm', hn, hn'⟩ := h
  dsimp only at hy hm hm' hn hn'
  have month := daysBeforeMonth_succ y hm
  unfold Date.next
  split_ifs with inside before
  · simp only [dayNumber]
    omega
  · simp only [dayNumber] at inside ⊢
    omega
  · obtain rfl : m = 12 := Nat.le_antisymm hm' (Nat.le_of_not_lt before)
    have year := daysBeforeYear_succ hy
    rw [← daysBeforeMonth_end] at year
    have first : daysBeforeMonth (y + 1) 1 = 0 := rfl
    simp only [dayNumber] at inside ⊢
    omega

/-! ## Counting off -/

/-- Months are found by counting off their days. -/
theorem monthAndDay_eq (y : Nat) {n m i k j : Nat} (hm : 1 ≤ m) (hi : i ≤ k)
    (hj : j < daysInMonth y (m + i))
    (hn : daysBeforeMonth y m + n = daysBeforeMonth y (m + i) + j) :
    monthAndDay y n m k = (m + i, j + 1) := by
  induction k generalizing n m i with
  | zero =>
    obtain rfl : i = 0 := Nat.le_zero.mp hi
    obtain rfl : n = j := by simpa using hn
    rfl
  | succ k ih =>
    have next := daysBeforeMonth_succ y hm
    rw [monthAndDay]
    cases i with
    | zero =>
      obtain rfl : n = j := by simpa using hn
      exact if_pos hj
    | succ i =>
      have later := daysBeforeMonth_mono y (Nat.le_add_left 1 m) (Nat.le_add_right (m + 1) i)
      have shift : m + (i + 1) = m + 1 + i := by omega
      rw [shift] at hn hj ⊢
      rw [if_neg (by omega)]
      exact ih (by omega) (by omega) hj (by omega)

theorem mul_add_div_of_lt {l q r : Nat} (h : r < l) : (q * l + r) / l = q := by
  rw [Nat.mul_comm, Nat.mul_add_div (by omega), Nat.div_eq_of_lt h, Nat.add_zero]

/-- At most three cycles are counted off; the last of them may be longer. -/
theorem min_div_eq {l q r : Nat} (hl : 0 < l) (hq : q < 4) (h : r < l ∨ q = 3) :
    min ((q * l + r) / l) 3 = q := by
  rcases h with h | rfl
  · rw [mul_add_div_of_lt h, Nat.min_eq_left (Nat.le_of_lt_succ hq)]
  · rw [Nat.mul_comm, Nat.mul_add_div hl, Nat.min_eq_right (Nat.le_add_right 3 _)]

/-- Years are found by counting off cycles of 400, 100, 4 and 1 years. -/
theorem ofDayNumber_cycles {a b c e k m d : Nat} (hb : b < 4) (hc : c < 25) (he : e < 4)
    (hk : k < 365 ∨ k = 365 ∧ e = 3 ∧ (c < 24 ∨ b = 3))
    (month : monthAndDay (a * 400 + b * 100 + c * 4 + e + 1) k 1 11 = (m, d)) :
    ofDayNumber (a * 146097 + (b * 36524 + (c * 1461 + (e * 365 + k)))) =
      ⟨a * 400 + b * 100 + c * 4 + e + 1, m, d⟩ := by
  have h1 : k < 365 ∨ e = 3 := by omega
  have h4 : e * 365 + k < 1461 := by omega
  have h100 : c * 1461 + (e * 365 + k) < 36524 ∨ b = 3 := by omega
  have h400 : b * 36524 + (c * 1461 + (e * 365 + k)) < 146097 := by
    have most : c * 1461 + (e * 365 + k) ≤ 36524 := by omega
    have := Nat.mul_le_mul_right 36524 (Nat.le_of_lt_succ hb)
    exact Nat.lt_of_le_of_lt (Nat.add_le_add this most) (by decide)
  rw [ofDayNumber, mul_add_div_of_lt h400, Nat.mul_add_mod_of_lt h400, min_div_eq (by decide) hb h100,
    Nat.add_sub_cancel_left, mul_add_div_of_lt h4, Nat.mul_add_mod_of_lt h4,
    min_div_eq (by decide) he h1, Nat.add_sub_cancel_left, month]

/-- The date of a day of a year, whose month is known. -/
theorem ofDayNumber_eq {y k m d : Nat} (hy : 1 ≤ y) (hk : k < daysInYear y)
    (month : monthAndDay y k 1 11 = (m, d)) : ofDayNumber (daysBeforeYear y + k) = ⟨y, m, d⟩ := by
  obtain ⟨a, b, c, e, hb, hc, he, rfl⟩ : ∃ a b c e, b < 4 ∧ c < 25 ∧ e < 4 ∧
      y = a * 400 + b * 100 + c * 4 + e + 1 :=
    ⟨(y - 1) / 400, (y - 1) / 100 % 4, (y - 1) / 4 % 25, (y - 1) % 4, by omega, by omega, by omega,
      by omega⟩
  have days : daysBeforeYear (a * 400 + b * 100 + c * 4 + e + 1) + k =
      a * 146097 + (b * 36524 + (c * 1461 + (e * 365 + k))) := by
    rw [daysBeforeYear_eq]
    omega
  have last : k < 365 ∨ k = 365 ∧ e = 3 ∧ (c < 24 ∨ b = 3) := by
    unfold daysInYear at hk
    split_ifs at hk with leap
    · have leap := (isLeap_iff _).mp leap
      omega
    · exact .inl hk
  rw [days, ofDayNumber_cycles hb hc he last month]

/-! ## Dates from numbers -/

/-- **A date is found from its number.** -/
theorem ofDayNumber_dayNumber {d : Date} (h : d.Valid) : ofDayNumber (dayNumber d) = d := by
  obtain ⟨y, m, n⟩ := d
  obtain ⟨hy, -, hm, hm', hn, hn'⟩ :
    1 ≤ y ∧ y ≤ 9999 ∧ 1 ≤ m ∧ m ≤ 12 ∧ 1 ≤ n ∧ n ≤ daysInMonth y m := h
  have within : daysBeforeMonth y m + (n - 1) < daysInYear y := by
    have next := daysBeforeMonth_succ y hm
    have later := daysBeforeMonth_mono y (Nat.le_add_left 1 m) (Nat.succ_le_succ hm')
    rw [daysBeforeMonth_end] at later
    omega
  have month : monthAndDay y (daysBeforeMonth y m + (n - 1)) 1 11 = (m, n) := by
    obtain ⟨i, rfl⟩ := Nat.exists_eq_add_of_le hm
    have here : n - 1 < daysInMonth y (1 + i) := by omega
    rw [monthAndDay_eq y (Nat.le_refl 1) (by omega) here (Nat.zero_add _), Nat.sub_add_cancel hn]
  rw [dayNumber, Nat.add_assoc, ofDayNumber_eq hy within month]

/-! ## Every number has a date -/

theorem daysInMonth_pos (y m : Nat) : 1 ≤ daysInMonth y m := by
  unfold daysInMonth
  split_ifs <;> decide

theorem daysInMonth_le (y m : Nat) : daysInMonth y m ≤ 31 := by
  unfold daysInMonth
  split_ifs <;> decide

theorem Date.next_valid {d : Date} (h : d.Valid) (more : dayNumber d + 1 < dayCount) :
    d.next.Valid := by
  have number := dayNumber_next h
  obtain ⟨y, m, n⟩ := d
  obtain ⟨hy, hy', hm, hm', hn, hn'⟩ := h
  dsimp only at hy hy' hm hm' hn hn'
  unfold Date.next at number ⊢
  dsimp only at number ⊢
  split_ifs at number ⊢ with inside before
  · exact ⟨hy, hy', hm, hm', Nat.le_succ_of_le hn, inside⟩
  · exact ⟨hy, hy', Nat.le_succ_of_le hm, before, Nat.le_refl 1, daysInMonth_pos y (m + 1)⟩
  · -- the year after the last one starts at the end of the calendar
    have last : y ≠ 9999 := by
      rintro rfl
      have beyond : dayNumber ⟨9999 + 1, 1, 1⟩ = dayCount := rfl
      omega
    have year : y + 1 ≤ 9999 := by omega
    have first : 1 ≤ 1 ∧ 1 ≤ 12 := by decide
    exact ⟨Nat.le_succ_of_le hy, year, first.1, first.2, first.1, daysInMonth_pos (y + 1) 1⟩

theorem exists_dayNumber {n : Nat} (h : n < dayCount) : ∃ d : Date, d.Valid ∧ dayNumber d = n := by
  induction n with
  | zero => exact ⟨⟨1, 1, 1⟩, by decide, rfl⟩
  | succ n ih =>
    obtain ⟨d, valid, rfl⟩ := ih (Nat.lt_of_succ_lt h)
    exact ⟨d.next, d.next_valid valid h, dayNumber_next valid⟩

theorem valid_ofDayNumber {n : Nat} (h : n < dayCount) : (ofDayNumber n).Valid := by
  obtain ⟨d, valid, rfl⟩ := exists_dayNumber h
  rwa [ofDayNumber_dayNumber valid]

theorem daysBeforeYear_le {y : Nat} (h : y ≤ 10000) : daysBeforeYear y ≤ dayCount := by
  rw [daysBeforeYear_eq]
  unfold dayCount
  omega

theorem dayNumber_lt {d : Date} (h : d.Valid) : dayNumber d < dayCount := by
  obtain ⟨y, m, n⟩ := d
  obtain ⟨hy, hy', hm, hm', hn, hn'⟩ := h
  dsimp only at hy hy' hm hm' hn hn'
  have year := daysBeforeYear_succ hy
  have month := daysBeforeMonth_succ y hm
  have later := daysBeforeMonth_mono y (Nat.le_add_left 1 m) (Nat.succ_le_succ hm')
  have last : daysBeforeYear (y + 1) ≤ dayCount := daysBeforeYear_le (Nat.succ_le_succ hy')
  rw [daysBeforeMonth_end] at later
  simp only [dayNumber]
  omega

/-- **Every number up to the last day is that of a date.** -/
theorem dayNumber_ofDayNumber {n : Nat} (h : n < dayCount) : dayNumber (ofDayNumber n) = n := by
  obtain ⟨d, valid, rfl⟩ := exists_dayNumber h
  rw [ofDayNumber_dayNumber valid]

end Calendar

namespace DateTime

variable {d : Calendar.Date} {c : Clock} {o : Option Int} {t : DateTime}

theorem ticks_lt {c : Clock} (h : c.Valid) : c.ticks < dayTicks := by
  obtain ⟨h1, h2, h3, h4⟩ := h
  unfold Clock.ticks dayTicks
  omega

theorem ofFields?_eq (hd : d.Valid) (hc : c.Valid) : ofFields? d c o =
    some ⟨Calendar.dayNumber d * dayTicks + c.ticks, o.map (· * 1000000)⟩ :=
  if_pos ⟨hd, hc⟩

/-- A reading shows the date that it is made from. -/
theorem date_ofFields? (h : ofFields? d c o = some t) : t.date = d := by
  unfold ofFields? at h
  split_ifs at h with valid
  obtain rfl := Option.some.inj h
  have small := ticks_lt valid.2
  unfold date
  rw [Calendar.mul_add_div_of_lt small, Calendar.ofDayNumber_dayNumber valid.1]

/-- A reading shows the time of day that it is made from. -/
theorem clock_ofFields? (h : ofFields? d c o = some t) : t.clock = c := by
  unfold ofFields? at h
  split_ifs at h with valid
  obtain rfl := Option.some.inj h
  have small := ticks_lt valid.2
  obtain ⟨h1, h2, h3, h4⟩ := valid.2
  obtain ⟨hour, minute, second, micro⟩ := c
  unfold clock
  dsimp only
  rw [Nat.mul_add_mod_of_lt small]
  unfold Clock.ticks
  dsimp only at h1 h2 h3 h4 ⊢
  rw [Clock.mk.injEq]
  omega

theorem ticks_lt_of_ofFields? (h : ofFields? d c o = some t) : t.ticks < tickCount := by
  unfold ofFields? at h
  split_ifs at h with valid
  obtain rfl := Option.some.inj h
  have day := Calendar.dayNumber_lt valid.1
  have small := ticks_lt valid.2
  calc Calendar.dayNumber d * dayTicks + c.ticks < (Calendar.dayNumber d + 1) * dayTicks := by
        rw [Nat.add_mul, Nat.one_mul]
        exact Nat.add_lt_add_left small _
    _ ≤ tickCount := Nat.mul_le_mul_right dayTicks day

theorem ticks_lt_of_ofTicks? {n : Int} (h : ofTicks? n o = some t) : t.ticks < tickCount := by
  unfold ofTicks? at h
  split_ifs at h with range
  obtain rfl := Option.some.inj h
  dsimp only
  omega

theorem valid_clock (t : DateTime) : t.clock.Valid := by
  have inside : t.ticks % dayTicks < dayTicks := Nat.mod_lt _ (by decide)
  unfold clock Clock.Valid
  unfold dayTicks at *
  dsimp only
  omega

theorem ticks_clock (t : DateTime) : t.clock.ticks = t.ticks % dayTicks := by
  unfold clock Clock.ticks
  dsimp only
  omega

theorem date_inside (h : t.ticks < tickCount) : t.ticks / dayTicks < Calendar.dayCount :=
  Nat.div_lt_of_lt_mul (Nat.mul_comm _ _ ▸ h)

theorem valid_date (h : t.ticks < tickCount) : t.date.Valid :=
  Calendar.valid_ofDayNumber (date_inside h)

/-- **A reading is made from the fields that it shows.** -/
theorem ofFields?_shown (h : t.ticks < tickCount) :
    ofFields? t.date t.clock o = some ⟨t.ticks, o.map (· * 1000000)⟩ := by
  have number : Calendar.dayNumber t.date = t.ticks / dayTicks :=
    Calendar.dayNumber_ofDayNumber (date_inside h)
  rw [ofFields?_eq (valid_date h) (valid_clock t), number, ticks_clock, Nat.mul_comm, Nat.div_add_mod]

end DateTime

end AcmeClient
