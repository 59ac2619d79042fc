import AcmeClient.Proofs.Text.Words
import AcmeClient.Proofs.Time.RetryAfter
import AcmeClient.Proofs.Time.Timestamp

/-!
# Dates and delays are read exactly

* `MailDate.words`, `MailDate.text`: a point in time on the UTC clock as it is written in a header;
* `MailDate.integer?_of_ascii`, `MailDate.clock?_clockText`: numbers and times of day are read back;
* **`MailDate.fields?_text`**: a written point in time has the fields that it shows;
* **`MailDate.read_text`**: so it is read back;
* **`RetryAfter.forms_read_exactly`**: the header that tells when to ask again is read exactly, be
  it a delay or a date.
-/

namespace AcmeClient

theorem Digit.value?_of_ascii? {c : Char} (h : (ascii? c).isSome = true) : value? c = ascii? c :=
  @of_ascii? (fun c => value? c = ascii? c) (by decide) c h

theorem Digit.number?_of_ascii {s : List Char} (hs : AllAscii s) (ne : s ≠ []) :
    number? s = some (natOf s) := by
  have values : s.mapM value? = s.mapM ascii? := by
    clear ne
    induction s with
    | nil => rfl
    | cons c s ih =>
      rw [List.mapM_cons, List.mapM_cons, value?_of_ascii? (hs c List.mem_cons_self),
        ih fun d hd => hs d (List.mem_cons_of_mem c hd)]
  rw [← asciiNumber?_eq hs ne, number?, asciiNumber?, values]

namespace MailDate

open Digit (AllAscii natOf padded)
open Notation (clockText)

/-! ## What is written -/

/-- The names of the days as they are written. -/
def dayTitles : List (List Char) :=
  ["Mon", "Tue", "Wed", "Thu", "Fri", "Sat", "Sun"].map String.toList

/-- The names of the months as they are written. -/
def monthTitles : List (List Char) :=
  ["Jan", "Feb", "Mar", "Apr", "May", "Jun", "Jul", "Aug", "Sep", "Oct", "Nov", "Dec"].map
    String.toList

/-- Day of the week, day, month, year, time of day and zone of a point in time. -/
def words (t : DateTime) : List (List Char) :=
  [dayTitles.getD (Calendar.weekday (t.ticks / DateTime.dayTicks)) [] ++ [','],
    padded 2 t.date.day, monthTitles.getD (t.date.month - 1) [], padded 4 t.date.year,
    clockText t.clock.hour t.clock.minute t.clock.second, "GMT".toList]

/-- A point in time on the UTC clock as it is written in a header, to the second. -/
def text (t : DateTime) : List Char :=
  [' '].intercalate (words t)

/-! ## Numbers -/

section Numbers

variable {ds : List Char}

theorem groupedNumber?_of_ascii (ascii : AllAscii ds) (ne : ds ≠ []) (short : ds.length ≤ 4300) :
    groupedNumber? ds = some (natOf ds) := by
  have plain : ∀ c ∈ ds, ¬ (c == '_') = true := fun c hc => by
    simpa using Digit.ne_of_ascii? (ascii c hc) (rfl : Digit.ascii? '_' = none)
  unfold groupedNumber?
  rw [Text.splitOn_of_none plain]
  simp [ne, Nat.not_lt.mpr short, Digit.number?_of_ascii ascii ne]

/-- Digits without a sign are read as their number. -/
theorem integer?_of_ascii (ascii : AllAscii ds) (ne : ds ≠ []) (short : ds.length ≤ 4300) :
    integer? ds = some (natOf ds : Int) := by
  have number := groupedNumber?_of_ascii ascii ne short
  obtain ⟨c, s, rfl⟩ := List.exists_cons_of_ne_nil ne
  have digit := ascii c List.mem_cons_self
  have minus : c ≠ '-' := Digit.ne_of_ascii? digit rfl
  have plus : c ≠ '+' := Digit.ne_of_ascii? digit rfl
  unfold integer?
  split
  · rename_i h
    exact absurd (List.cons.inj h).1 minus
  · rename_i h
    exact absurd (List.cons.inj h).1 plus
  · rw [number]
    rfl

theorem padded_ne_nil {w n : Nat} (hw : 0 < w) : padded w n ≠ [] :=
  List.ne_nil_of_length_pos (Digit.length_padded.symm ▸ hw)

theorem integer?_padded {w n : Nat} (hw : 0 < w) (short : w ≤ 4300) (h : n < 10 ^ w) :
    integer? (padded w n) = some (n : Int) := by
  rw [integer?_of_ascii Digit.allAscii_padded (padded_ne_nil hw) (Digit.length_padded.symm ▸ short),
    Digit.natOf_padded h]

/-- A time of day is divided at its colons. -/
theorem clock?_clockText (h m s : Nat) :
    clock? (clockText h m s) = some (padded 2 h, padded 2 m, padded 2 s) := by
  have plain (n : Nat) : ∀ c ∈ padded 2 n, ¬ (c == ':') = true := fun c hc => by
    simpa using Digit.ne_of_ascii? (Digit.allAscii_padded c hc) (rfl : Digit.ascii? ':' = none)
  have divided := @Text.splitOn_append_cons (· == ':') ':' rfl
  have parts : Text.splitOn (· == ':') (clockText h m s) = [padded 2 h, padded 2 m, padded 2 s] := by
    unfold clockText
    rw [List.append_assoc, List.cons_append, divided, divided, Text.splitOn_of_none (plain h),
      Text.splitOn_of_none (plain m), Text.splitOn_of_none (plain s)]
    rfl
  unfold clock?
  rw [parts]

end Numbers

/-! ## Names -/

theorem solid_dayTitle : ∀ k < 7, ∀ c ∈ dayTitles.getD k [] ++ [','], ¬ Char.isBlank c = true := by
  have all : ∀ k < 7, ((dayTitles.getD k [] ++ [',']).all fun c => !Char.isBlank c) = true := by
    decide +kernel
  exact fun k hk => Text.solid_of_all (all k hk)

theorem monthTitle_ne_nil : ∀ k < 12, monthTitles.getD k [] ≠ [] := by
  decide +kernel

theorem solid_monthTitle : ∀ k < 12, ∀ c ∈ monthTitles.getD k [], ¬ Char.isBlank c = true := by
  have all : ∀ k < 12, ((monthTitles.getD k []).all fun c => !Char.isBlank c) = true := by
    decide +kernel
  exact fun k hk => Text.solid_of_all (all k hk)

theorem solid_gmt : "GMT".toList ≠ [] ∧ ∀ c ∈ "GMT".toList, ¬ Char.isBlank c = true :=
  ⟨by decide +kernel, Text.solid_of_all (by decide +kernel)⟩

theorem month?_monthTitle : ∀ k < 12, month? (lower (monthTitles.getD k [])) = some (k + 1) := by
  decide +kernel

theorem zoneOffset_gmt : zoneOffset "GMT".toList = some 0 := by
  decide +kernel

/-! ## Points in time -/

section Points

variable {t : DateTime}

theorem weekday_lt (n : Nat) : Calendar.weekday n < 7 :=
  Nat.mod_lt n (by decide)

theorem solid_padded {w n : Nat} : ∀ c ∈ padded w n, ¬ Char.isBlank c = true := fun c hc =>
  Timestamp.Written.isBlank_of_ascii? (Digit.allAscii_padded c hc)

theorem solid_clockText (h m s : Nat) : ∀ c ∈ clockText h m s, ¬ Char.isBlank c = true := by
  intro c hc
  have none : AllAscii [] := fun _ h => absurd h List.not_mem_nil
  have all := Notation.mem_clockText (h := h) (m := m) (s := s) none c (List.mem_append_left _ hc)
  rcases all with digit | rfl | rfl
  · exact Timestamp.Written.isBlank_of_ascii? digit
  · decide
  · decide

theorem words_text (h : t.ticks < DateTime.tickCount) : Text.words (text t) = words t := by
  obtain ⟨-, -, month, month', -, -⟩ := DateTime.valid_date h
  have before : t.date.month - 1 < 12 := by omega
  refine Text.words_intercalate rfl fun w hw => ?_
  simp only [words, List.mem_cons, List.not_mem_nil, or_false] at hw
  rcases hw with rfl | rfl | rfl | rfl | rfl | rfl
  · exact ⟨by simp, solid_dayTitle _ (weekday_lt _)⟩
  · exact ⟨padded_ne_nil (by decide), solid_padded⟩
  · exact ⟨monthTitle_ne_nil _ before, solid_monthTitle _ before⟩
  · exact ⟨padded_ne_nil (by decide), solid_padded⟩
  · exact ⟨by simp [clockText], solid_clockText _ _ _⟩
  · exact solid_gmt

theorem dropComma_of_notMem {s : List Char} (h : ',' ∉ s) : dropComma s = s :=
  if_neg fun last => h (List.mem_of_getLast? last)

theorem notMem_padded {c : Char} (h : Digit.ascii? c = none) (w n : Nat) : c ∉ padded w n := fun hc =>
  Digit.ne_of_ascii? (Digit.allAscii_padded c hc) h rfl

theorem notMem_clockText {c : Char} (h : Digit.ascii? c = none) (ne : c ≠ ':')
    (hour minute second : Nat) : c ∉ clockText hour minute second := by
  simp [clockText, notMem_padded h, ne]

theorem text_ends (t : DateTime) : ∃ middle, text t =
    (dayTitles.getD (Calendar.weekday (t.ticks / DateTime.dayTicks)) [] ++ [',']) ++
      ' ' :: (middle ++ "GMT".toList) := by
  refine ⟨[' '].intercalate [padded 2 t.date.day, monthTitles.getD (t.date.month - 1) [],
    padded 4 t.date.year, clockText t.clock.hour t.clock.minute t.clock.second] ++ [' '], ?_⟩
  simp [text, words, List.intercalate]

theorem trim_text {pre post : List Char} (before : ∀ c ∈ pre, Char.isBlank c = true)
    (behind : ∀ c ∈ post, Char.isBlank c = true) (t : DateTime) :
    Text.trim (pre ++ text t ++ post) = text t := by
  obtain ⟨middle, parts⟩ := text_ends t
  refine Text.strip_between (by simp [parts]) before behind (fun c hc => ?_) fun c hc => ?_
  · rw [parts, List.head?_append_of_ne_nil _ (by simp)] at hc
    exact solid_dayTitle _ (weekday_lt _) c (List.mem_of_mem_head? hc)
  · rw [parts, List.getLast?_append_of_ne_nil _ (by simp), List.getLast?_cons_of_ne_nil (by simp),
      List.getLast?_append_of_ne_nil _ solid_gmt.1] at hc
    exact solid_gmt.2 c (List.mem_of_getLast? hc)

theorem fields?_of_words {s w d m y c z : List Char}
    (h : Text.words s = [w ++ [','], d, m, y, c, z]) : fields? s = fieldsOfWords? d m y c z := by
  have comma : (w ++ [',']).getLast? = some ',' := List.getLast?_concat
  unfold fields?
  rw [h, dropDayName, if_pos (.inl comma)]
  rfl

theorem fieldsOfWords?_padded {day year hour minute second n : Nat} {name z : List Char}
    (hd : day < 100) (hy : year < 10000) (hh : hour < 100) (hm : minute < 100) (hs : second < 100)
    (ne : name ≠ []) (named : month? (lower name) = some n) :
    fieldsOfWords? (padded 2 day) name (padded 4 year) (clockText hour minute second) z =
      some ⟨fullYear year, n, day, hour, minute, second, zoneOffset z⟩ := by
  have comma (w n : Nat) : dropComma (padded w n) = padded w n :=
    dropComma_of_notMem (notMem_padded rfl w n)
  have whole : dropComma (clockText hour minute second) = clockText hour minute second :=
    dropComma_of_notMem (notMem_clockText rfl (by decide) hour minute second)
  have date := integer?_padded (by decide : 0 < 2) (by decide) hd
  have years := integer?_padded (by decide : 0 < 4) (by decide) hy
  have hours := integer?_padded (by decide : 0 < 2) (by decide) hh
  have minutes := integer?_padded (by decide : 0 < 2) (by decide) hm
  have seconds := integer?_padded (by decide : 0 < 2) (by decide) hs
  have colon : ':' ∉ padded 4 year := notMem_padded rfl 4 year
  have digits := @Digit.allAscii_padded 4 year
  have drop := comma 4 year
  obtain ⟨c, ds, hcd⟩ := List.exists_cons_of_ne_nil (padded_ne_nil (n := year) (by decide : 0 < 4))
  rw [hcd] at years colon digits drop ⊢
  have first : c ≠ ':' := fun h => colon (h ▸ List.mem_cons_self)
  have digit : Digit.isDigit c = true :=
    @Digit.of_ascii? (fun c => Digit.isDigit c = true) (by decide) c (digits c List.mem_cons_self)
  unfold fieldsOfWords?
  simp [padded_ne_nil, ne, named, comma, whole, first, colon, drop, digit, clock?_clockText, date,
    years, hours, minutes, seconds]

/-- **A written point in time has the fields that it shows.** -/
theorem fields?_text (h : t.ticks < DateTime.tickCount) (year : 1000 ≤ t.date.year) :
    fields? (text t) = some ⟨t.date.year, t.date.month, t.date.day, t.clock.hour, t.clock.minute,
      t.clock.second, some 0⟩ := by
  obtain ⟨-, year', month, month', -, day'⟩ := DateTime.valid_date h
  obtain ⟨hour, minute, second, -⟩ := DateTime.valid_clock t
  have days := Calendar.daysInMonth_le t.date.year t.date.month
  have before : t.date.month - 1 < 12 := by omega
  have named := month?_monthTitle (t.date.month - 1) before
  rw [Nat.sub_add_cancel month] at named
  have full : fullYear t.date.year = t.date.year := if_neg (by omega)
  rw [fields?_of_words (words_text h), fieldsOfWords?_padded (by omega) (by omega) (by omega)
    (by omega) (by omega) (monthTitle_ne_nil _ before) named, full, zoneOffset_gmt]

theorem isShort_natCast {n : Nat} (h : n < 0x80000000) : isShort n = true := by
  unfold isShort
  rw [Bool.and_eq_true, decide_eq_true_eq, decide_eq_true_eq]
  omega

theorem reading_utc {year month day hour minute second : Nat} (hy : year < 0x80000000)
    (hd : day < 0x80000000) (hh : hour < 0x80000000) (hm : minute < 0x80000000)
    (hs : second < 0x80000000)
    (read : DateTime.ofFields? ⟨year, month, day⟩ ⟨hour, minute, second, 0⟩ (some 0) = some t) :
    Fields.reading ⟨year, month, day, hour, minute, second, some 0⟩ = .time t := by
  unfold Fields.reading
  simp [isShort_natCast, hy, hd, hh, hm, hs, isOffset, read]

/-- **A written point in time is read back.** -/
theorem read_text (h : t.ticks < DateTime.tickCount) (whole : t.ticks % 1000000 = 0)
    (year : 1000 ≤ t.date.year) : MailDate.read (text t) = .time ⟨t.ticks, some 0⟩ := by
  obtain ⟨-, year', -, -, -, day'⟩ := DateTime.valid_date h
  obtain ⟨hour, minute, second, -⟩ := DateTime.valid_clock t
  have days := Calendar.daysInMonth_le t.date.year t.date.month
  have shown := @DateTime.ofFields?_shown (some 0) t h
  have micro : t.clock.microsecond = 0 := by
    unfold DateTime.clock DateTime.dayTicks
    dsimp only
    omega
  have clock : t.clock = ⟨t.clock.hour, t.clock.minute, t.clock.second, 0⟩ := by
    rw [← micro]
  rw [clock] at shown
  unfold MailDate.read
  rw [fields?_text h year]
  exact reading_utc (by omega) (by omega) (by omega) (by omega) (by omega) shown

end Points

end MailDate

namespace RetryAfter

open Digit (AllAscii natOf)

section Forms

variable {now : DateTime} {pre post : List Char}

theorem parse_of_delay {ds : List Char} (before : ∀ c ∈ pre, Char.isBlank c = true)
    (behind : ∀ c ∈ post, Char.isBlank c = true) (ne : ds ≠ []) (ascii : AllAscii ds)
    (short : ds.length ≤ 4300) (inside : now.ticks + natOf ds * 1000000 < DateTime.tickCount) :
    parse (.text (String.ofList (pre ++ ds ++ post))) now =
      .ok (some ⟨now.ticks + natOf ds * 1000000, now.offset⟩) := by
  have solid : ∀ c ∈ ds, ¬ Char.isBlank c = true := fun c hc =>
    Timestamp.Written.isBlank_of_ascii? (ascii c hc)
  have digits : ∀ c ∈ ds, Digit.isDigit c = true := fun c hc =>
    @Digit.of_ascii? (fun c => Digit.isDigit c = true) (by decide) c (ascii c hc)
  have trimmed : Text.trim (pre ++ ds ++ post) = ds :=
    Text.strip_between ne before behind (fun c hc => solid c (List.mem_of_mem_head? hc))
      fun c hc => solid c (List.mem_of_getLast? hc)
  have few : ¬ ds.length > maxDigits := Nat.not_lt.mpr short
  simp only [parse, parseText, String.toList_ofList, trimmed]
  rw [if_pos (by simpa [ne] using digits), delayText, if_neg few, Digit.number?_of_ascii ascii ne]
  dsimp only
  rw [delayed_of_lt inside]
  rfl

theorem parse_of_date {t : DateTime} (before : ∀ c ∈ pre, Char.isBlank c = true)
    (behind : ∀ c ∈ post, Char.isBlank c = true) (utc : t.offset = some 0)
    (h : t.ticks < DateTime.tickCount) (whole : t.ticks % 1000000 = 0)
    (year : 1000 ≤ t.date.year) :
    parse (.text (String.ofList (pre ++ MailDate.text t ++ post))) now = .ok (some t) := by
  have blank : ' ' ∈ MailDate.text t := by
    obtain ⟨middle, parts⟩ := MailDate.text_ends t
    simp [parts]
  have noDelay : ¬ ∀ c ∈ MailDate.text t, Digit.isDigit c = true := fun all =>
    absurd (all ' ' blank) (by decide)
  simp only [parse, parseText, String.toList_ofList, MailDate.trim_text before behind]
  rw [if_neg (by simpa using fun _ => noDelay), dateText, MailDate.read_text h whole year]
  obtain ⟨ticks, offset⟩ := t
  obtain rfl : offset = some 0 := utc
  rfl

/-- **The header is read exactly in both forms.** Whatever blanks are around it, digits stand for
the point in time so many seconds later, and a point in time on the UTC clock that is written to the
second stands for itself, whatever the time is. -/
theorem forms_read_exactly (before : ∀ c ∈ pre, Char.isBlank c = true)
    (behind : ∀ c ∈ post, Char.isBlank c = true) (now : DateTime) :
    (∀ ds : List Char, ds ≠ [] → AllAscii ds → ds.length ≤ 4300 →
      now.ticks + natOf ds * 1000000 < DateTime.tickCount →
      parse (.text (String.ofList (pre ++ ds ++ post))) now =
        .ok (some ⟨now.ticks + natOf ds * 1000000, now.offset⟩)) ∧
    ∀ t : DateTime, t.offset = some 0 → t.ticks < DateTime.tickCount → t.ticks % 1000000 = 0 →
      1000 ≤ t.date.year →
      parse (.text (String.ofList (pre ++ MailDate.text t ++ post))) now = .ok (some t) :=
  ⟨fun _ ne ascii short inside => parse_of_delay before behind ne ascii short inside,
    fun _ utc h whole year => parse_of_date before behind utc h whole year⟩

end Forms

/-- A delay with leading zeros, and the last second of the calendar. -/
theorem forms_read_exactly_last :
    parse (.text "\t0090 \n") ⟨63907920000000000, some 0⟩ =
        .ok (some ⟨63907920090000000, some 0⟩) ∧
      parse (.text "\tFri, 31 Dec 9999 23:59:59 GMT \n") ⟨63907920000000000, some 0⟩ =
        .ok (some ⟨315537897599000000, some 0⟩) := by
  have before : ∀ c ∈ ['\t'], Char.isBlank c = true := List.all_eq_true.mp (by decide)
  have behind : ∀ c ∈ [' ', '\n'], Char.isBlank c = true := List.all_eq_true.mp (by decide)
  obtain ⟨delay, date⟩ := forms_read_exactly before behind ⟨63907920000000000, some 0⟩
  exact ⟨delay "0090".toList (by decide) (by decide) (by decide) (by decide),
    date ⟨315537897599000000, some 0⟩ rfl (by decide) (by decide) (by decide)⟩

end RetryAfter

end AcmeClient
