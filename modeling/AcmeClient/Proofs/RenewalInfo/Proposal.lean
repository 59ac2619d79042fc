import AcmeClient.Proofs.Binary64.Rounding
import AcmeClient.Proofs.RenewalInfo.Decisions
import Mathlib.Order.Interval.Set.Defs

/-!
# Proposals for a renewal

* `RenewalInfo.Record.microseconds`: a number of seconds, rounded in three steps to microseconds;
* `RenewalInfo.Record.share`: what a fraction of a span of time comes to;
* **`RenewalInfo.Record.share_mono`**: it grows with the fraction;
* **`RenewalInfo.Record.share_one`**: the whole of a span below `2 ^ 32` seconds comes to itself;
* **`RenewalInfo.proposal_within_rest`**: so a proposal lies in what is left of the window.
-/

namespace AcmeClient

open Binary64 (Is nearest nearestInt value?)

namespace RenewalInfo

namespace Record

/-! ## From seconds to microseconds -/

/-- The microseconds behind the whole seconds, rounded to a number of the format. -/
def microPart (x : ℚ) : ℚ :=
  nearest (nearest (x - ⌊x⌋₊) * 1000000)

/-- A number of seconds in whole microseconds. -/
def microseconds (x : ℚ) : ℕ :=
  nearestInt (⌊x⌋₊ * 1000000 + microPart x)

section Microseconds

variable {x y : ℚ}

theorem fraction_bounds (hx : 0 ≤ x) : 0 ≤ x - ⌊x⌋₊ ∧ x - ⌊x⌋₊ < 1 := by
  obtain ⟨low, high⟩ := Binary64.floor_bounds hx
  constructor <;> linarith

theorem nearest_fraction_le (hx : 0 ≤ x) : nearest (x - ⌊x⌋₊) ≤ 1 := by
  obtain ⟨low, high⟩ := fraction_bounds hx
  have rounded := Binary64.nearest_mono low high.le
  rwa [← Nat.cast_one, Binary64.nearest_natCast (by norm_num), Nat.cast_one] at rounded

theorem microPart_nonneg (x : ℚ) : 0 ≤ microPart x :=
  Binary64.nearest_nonneg _

theorem micro_nonneg (x : ℚ) : 0 ≤ nearest (x - ⌊x⌋₊) * 1000000 :=
  mul_nonneg (Binary64.nearest_nonneg _) (by norm_num)

theorem micro_le (hx : 0 ≤ x) : nearest (x - ⌊x⌋₊) * 1000000 ≤ 1000000 := by
  have := nearest_fraction_le hx
  linarith

theorem microPart_le (hx : 0 ≤ x) : microPart x ≤ 1000000 := by
  have whole : nearest (1000000 : ℕ) = (1000000 : ℕ) := Binary64.nearest_natCast (by norm_num)
  push_cast at whole
  exact (Binary64.nearest_mono (micro_nonneg x) (micro_le hx)).trans_eq whole

theorem microseconds_zero : microseconds 0 = 0 := by
  have part : microPart 0 = 0 := by
    rw [microPart, Nat.floor_zero, Nat.cast_zero, sub_zero, Binary64.nearest_zero, zero_mul,
      Binary64.nearest_zero]
  rw [microseconds, part, Nat.floor_zero, Nat.cast_zero, zero_mul, add_zero,
    Binary64.nearestInt_zero]

theorem microseconds_mono (hx : 0 ≤ x) (h : x ≤ y) : microseconds x ≤ microseconds y := by
  refine Binary64.nearestInt_mono ?_
  rcases (Nat.floor_mono h).eq_or_lt with same | less
  · -- within one second the fraction grows
    have fractions : nearest (x - ⌊x⌋₊) ≤ nearest (y - ⌊y⌋₊) := by
      refine Binary64.nearest_mono (fraction_bounds hx).1 ?_
      rw [same]
      linarith
    have parts : microPart x ≤ microPart y :=
      Binary64.nearest_mono (micro_nonneg x) (by linarith)
    rw [same]
    linarith
  · have next : (⌊x⌋₊ : ℚ) + 1 ≤ ⌊y⌋₊ := by exact_mod_cast less
    have := microPart_le hx
    have := microPart_nonneg y
    linarith

theorem abs_microPart_sub_le (hx : 0 ≤ x) :
    |microPart x - (x - ⌊x⌋₊) * 1000000| ≤ 1 / 8 := by
  obtain ⟨low, high⟩ := fraction_bounds hx
  have below : nearest (x - ⌊x⌋₊) * 1000000 < 2 ^ (20 : ℤ) := by
    have := micro_le hx
    norm_num
    linarith
  have first : |nearest (x - ⌊x⌋₊) - (x - ⌊x⌋₊)| ≤ 1 / 16000000 :=
    (Binary64.abs_nearest_sub_le (k := 0) low (by rwa [zpow_zero]) (by decide)).trans (by norm_num)
  have second : |microPart x - nearest (x - ⌊x⌋₊) * 1000000| ≤ 1 / 16 :=
    (Binary64.abs_nearest_sub_le (micro_nonneg x) below (by decide)).trans (by norm_num)
  rw [abs_le] at first second ⊢
  constructor <;> linarith

theorem microseconds_of_near {k : ℕ} (hx : 0 ≤ x) (h : |x * 1000000 - k| ≤ 1 / 4) :
    microseconds x = k := by
  have part := abs_microPart_sub_le hx
  have nonneg : 0 ≤ ⌊x⌋₊ * 1000000 + microPart x :=
    add_nonneg (by positivity) (microPart_nonneg x)
  refine Binary64.nearestInt_of_near nonneg ?_
  rw [abs_le] at part h
  rw [abs_lt]
  constructor <;> linarith

end Microseconds

/-! ## Shares of a span -/

/-- A span in microseconds as a number of seconds. -/
def roundedSeconds (span : ℕ) : ℚ :=
  nearest (span / 1000000)

/-- The microseconds that a fraction of a span comes to. -/
def share (span : ℕ) (x : ℚ) : ℕ :=
  microseconds (nearest (roundedSeconds span * x))

section Share

variable {span : ℕ} {x y : ℚ}

theorem roundedSeconds_nonneg (span : ℕ) : 0 ≤ roundedSeconds span :=
  Binary64.nearest_nonneg _

theorem share_zero (span : ℕ) : share span 0 = 0 := by
  rw [share, mul_zero, Binary64.nearest_zero, microseconds_zero]

/-- **Greater fractions come to no less.** -/
theorem share_mono (span : ℕ) (hx : 0 ≤ x) (h : x ≤ y) : share span x ≤ share span y := by
  have nonneg := roundedSeconds_nonneg span
  exact microseconds_mono (Binary64.nearest_nonneg _)
    (Binary64.nearest_mono (mul_nonneg nonneg hx) (mul_le_mul_of_nonneg_left h nonneg))

theorem seconds_lt (h : span < 2 ^ 32 * 1000000) : (span / 1000000 : ℚ) < 2 ^ (32 : ℤ) := by
  rw [div_lt_iff₀ (by norm_num)]
  exact_mod_cast h

theorem roundedSeconds_le (h : span < 2 ^ 32 * 1000000) : roundedSeconds span ≤ 2 ^ 32 := by
  have whole : nearest (2 ^ 32 : ℕ) = (2 ^ 32 : ℕ) := Binary64.nearest_natCast (by norm_num)
  have below : (span / 1000000 : ℚ) ≤ (2 ^ 32 : ℕ) := by exact_mod_cast (seconds_lt h).le
  have rounded := (Binary64.nearest_mono (by positivity) below).trans_eq whole
  exact_mod_cast rounded

/-- **The whole of a span comes to itself**, if it is below `2 ^ 32` seconds. -/
theorem share_one (h : span < 2 ^ 32 * 1000000) : share span 1 = span := by
  have rounded : |nearest (span / 1000000 : ℚ) - span / 1000000| ≤ 1 / 4000000 :=
    (Binary64.abs_nearest_sub_le (by positivity) (seconds_lt h) (by decide)).trans (by norm_num)
  rw [share, mul_one, roundedSeconds, Binary64.nearest_nearest]
  refine microseconds_of_near (Binary64.nearest_nonneg _) ?_
  rw [abs_le] at rounded ⊢
  constructor <;> linarith

theorem share_le (h : span < 2 ^ 32 * 1000000) (hx : 0 ≤ x) (hx' : x ≤ 1) : share span x ≤ span :=
  (share_mono span hx hx').trans_eq (share_one h)

end Share

/-! ## The numbers of the format -/

theorem nearestMicrosecond_of_is {x : Binary64} {negative : Bool} {p : ℚ} (h : x.Is negative p)
    (whole : ℕ) : nearestMicrosecond whole x = some (nearestInt (whole + p)) := by
  obtain ⟨m, e, rfl, rfl⟩ := h
  obtain ⟨pos, value⟩ := Binary64.ratio_eq m e
  unfold nearestMicrosecond
  dsimp only
  generalize (Binary64.ratio m e).1 = a at value ⊢
  generalize (Binary64.ratio m e).2 = b at pos value ⊢
  have whole_parts : (whole + a / b) * b + a % b = whole * b + a := by
    rw [add_mul, add_assoc, Nat.div_add_mod']
  have pos' : (b : ℚ) ≠ 0 := by exact_mod_cast pos.ne'
  rw [Binary64.divNearest_eq _ pos, whole_parts, ← value]
  push_cast
  rw [add_div, mul_div_cancel_right₀ _ pos']

theorem split_eq {m : ℕ} {e : ℤ} : ∃ x, Binary64.split m e = (⌊(m * 2 ^ e : ℚ)⌋₊, x) ∧
    x.Is false (nearest (m * 2 ^ e - ⌊(m * 2 ^ e : ℚ)⌋₊)) := by
  obtain ⟨pos, value⟩ := Binary64.ratio_eq m e
  unfold Binary64.split
  dsimp only
  generalize (Binary64.ratio m e).1 = a at value ⊢
  generalize (Binary64.ratio m e).2 = b at pos value ⊢
  have pos' : (0 : ℚ) < b := by exact_mod_cast pos
  have floor : ⌊(m * 2 ^ e : ℚ)⌋₊ = a / b := by rw [← value, Nat.floor_div_eq_div]
  have part : ((a % b : ℕ) / b : ℚ) = m * 2 ^ e - (a / b : ℕ) := by
    have parts : (a : ℚ) = b * (a / b : ℕ) + (a % b : ℕ) := by
      exact_mod_cast (Nat.div_add_mod a b).symm
    rw [← value, div_eq_iff pos'.ne', sub_mul, div_mul_cancel₀ _ pos'.ne']
    linarith
  have less : ((a % b : ℕ) / b : ℚ) ≤ 2 ^ 53 := by
    have inside : ((a % b : ℕ) : ℚ) ≤ b := by exact_mod_cast (Nat.mod_lt a pos).le
    exact ((div_le_one pos').mpr inside).trans (by norm_num)
  have rounded := Binary64.is_ofRatio false (a % b) pos (Binary64.lt_two_zpow less)
  rw [part] at rounded
  rw [floor]
  exact ⟨_, rfl, rounded⟩

theorem microsecondsOf_of_is {x : Binary64} {negative : Bool} {p : ℚ} (h : x.Is negative p) :
    microsecondsOf x =
      some (if negative then -(microseconds p : ℤ) else (microseconds p : ℤ)) := by
  obtain ⟨m, e, rfl, rfl⟩ := h
  obtain ⟨part, split, is_part⟩ := @split_eq m e
  have nonneg : (0 : ℚ) ≤ m * 2 ^ e := Binary64.scaled_nonneg (Nat.cast_nonneg m) e
  have million : (Binary64.ofInt 1000000).Is false 1000000 := by
    exact_mod_cast Binary64.is_ofInt (n := 1000000) (by norm_num)
  have micro := is_part.mul million
    (Binary64.lt_two_zpow ((micro_le nonneg).trans (by norm_num)))
  unfold microsecondsOf
  dsimp only
  rw [split]
  dsimp only
  rw [nearestMicrosecond_of_is micro, Option.bind_eq_bind, Option.bind_some]
  push_cast
  rfl

section Points

variable {span : ℕ} {t : DateTime} {fraction : Binary64} {x : ℚ}

theorem microsecondsOf_share (short : span < 2 ^ 32 * 1000000) (value : fraction.value? = some x)
    (hx : 0 ≤ x) (hx' : x ≤ 1) :
    microsecondsOf ((secondsOf span).mul fraction) = some (share span x : ℤ) := by
  obtain ⟨negative, is_x, zero⟩ := Binary64.is_of_value? value hx
  have small := seconds_lt short
  have seconds : (secondsOf span).Is false (roundedSeconds span) := by
    have bounded : (span / (1000000 : ℕ) : ℚ) < 2 ^ (1023 : ℤ) := by
      rw [Nat.cast_ofNat]
      exact Binary64.lt_two_zpow (small.le.trans (by norm_num))
    have rounded := Binary64.is_ofRatio false span (by decide) bounded
    rwa [Nat.cast_ofNat] at rounded
  have product : roundedSeconds span * x ≤ 2 ^ 53 := by
    have most := roundedSeconds_le short
    have nonneg := roundedSeconds_nonneg span
    calc roundedSeconds span * x ≤ 2 ^ 32 * 1 := mul_le_mul most hx' hx (by norm_num)
      _ ≤ 2 ^ 53 := by norm_num
  rw [microsecondsOf_of_is (seconds.mul is_x (Binary64.lt_two_zpow product))]
  cases negative with
  | false => rfl
  | true =>
    -- a negative sign is that of zero
    have nothing : microseconds (nearest (roundedSeconds span * x)) = 0 := by
      rw [zero rfl]
      exact share_zero span
    rw [share, nothing]
    rfl

theorem pointAfter_eq {n : ℤ} (hn : 0 ≤ n) (short : span < 2 ^ 32 * 1000000)
    (inside : n + span < DateTime.tickCount) (value : fraction.value? = some x) (hx : 0 ≤ x)
    (hx' : x ≤ 1) : pointAfter (pointAt n) span fraction = .ok (pointAt (n + share span x)) := by
  have most := share_le short hx hx'
  have moved : (pointAt n).addMicroseconds? (share span x) = some (pointAt (n + share span x)) := by
    have ticks : ((pointAt n).ticks : ℤ) = n := Int.toNat_of_nonneg hn
    unfold DateTime.addMicroseconds?
    rw [ticks]
    exact ofTicks?_of_representable ⟨by omega, by omega⟩
  unfold pointAfter
  rw [microsecondsOf_share short value hx hx', Option.bind_some, moved]

theorem eq_pointAt (utc : t.offset = some 0) : t = pointAt t.instant := by
  obtain ⟨ticks, offset⟩ := t
  obtain rfl : offset = some 0 := utc
  simp [pointAt, DateTime.instant]

theorem instant_nonneg (utc : t.offset = some 0) : 0 ≤ t.instant := by
  rw [DateTime.instant, utc, Option.getD_some, sub_zero]
  exact Int.natCast_nonneg t.ticks

theorem later_pointAt {m n : ℤ} (hm : 0 ≤ m) (hn : 0 ≤ n) :
    later (pointAt m) (pointAt n) = pointAt (max m n) := by
  unfold later
  rw [instant_pointAt hm, instant_pointAt hn]
  split_ifs with h
  · rw [max_eq_right h.le]
  · rw [max_eq_left (not_lt.mp h)]

variable {r : Record} {frequency : Option ℤ}

theorem lastCheck_eq (utc : r.finish.offset = some 0)
    (left : Representable (r.finish.instant - frequency.getD 0)) :
    r.lastCheck frequency = .ok (pointAt (r.finish.instant - frequency.getD 0)) := by
  cases frequency with
  | none => rw [Option.getD_none, sub_zero, ← eq_pointAt utc, lastCheck]
  | some f =>
    have moved : r.finish.addMicroseconds? (-f) = some (pointAt (r.finish.instant - f)) := by
      have ticks : (r.finish.ticks : ℤ) + -f = r.finish.instant - f := by
        rw [DateTime.instant, utc, Option.getD_some, sub_zero, sub_eq_add_neg]
      unfold DateTime.addMicroseconds?
      rw [ticks, utc]
      exact ofTicks?_of_representable left
    simp only [lastCheck, moved, Option.getD_some]

theorem map_some_ne {ε α : Type} (x : Except ε α) : x.map some ≠ .ok none := by
  cases x <;> nofun

theorem proposal_eq {now : ℤ} (sound : r.Sound) (hn : 0 ≤ now)
    (left : Representable (r.finish.instant - frequency.getD 0)) (fraction : Binary64) :
    r.proposal frequency (pointAt now) fraction =
      let low := max r.start.instant now
      let high := r.finish.instant - frequency.getD 0
      if high ≤ low then .ok none
      else (pointAfter (pointAt low) (high - low).toNat fraction).map some := by
  have start := instant_nonneg sound.start_utc
  have low : later r.start (pointAt now) = pointAt (max r.start.instant now) := by
    rw [eq_pointAt sound.start_utc, later_pointAt start hn, instant_pointAt start]
  unfold proposal
  dsimp only
  rw [low, lastCheck_eq sound.finish_utc left]
  change (if (pointAt _).instant ≤ (pointAt _).instant then _ else _) = _
  rw [instant_pointAt left.1, instant_pointAt (le_max_of_le_right hn)]
  split_ifs
  · rfl
  · cases pointAfter _ _ fraction <;> rfl

theorem proposal_eq_none_iff {now : ℤ} (sound : r.Sound) (hn : 0 ≤ now)
    (left : Representable (r.finish.instant - frequency.getD 0)) (fraction : Binary64) :
    r.proposal frequency (pointAt now) fraction = .ok none ↔
      r.finish.instant - frequency.getD 0 ≤ max r.start.instant now := by
  rw [proposal_eq sound hn left]
  constructor
  · intro nothing
    by_contra more
    exact map_some_ne _ ((if_neg more).symm.trans nothing)
  · exact fun nothing => if_pos nothing

theorem proposal_eq_share {now low high : ℤ} (sound : r.Sound) (hn : 0 ≤ now)
    (left : Representable high) (hlow : low = max r.start.instant now)
    (hhigh : high = r.finish.instant - frequency.getD 0) (more : low < high)
    (short : (high - low).toNat < 2 ^ 32 * 1000000) (value : fraction.value? = some x) (hx : 0 ≤ x)
    (hx' : x ≤ 1) : r.proposal frequency (pointAt now) fraction =
      .ok (some (pointAt (low + share (high - low).toNat x))) := by
  have nonneg : 0 ≤ low := hlow ▸ le_max_of_le_right hn
  have inside : low + (high - low).toNat < DateTime.tickCount := by
    have := left.2
    omega
  rw [proposal_eq sound hn (hhigh ▸ left), ← hlow, ← hhigh]
  refine (if_neg more.not_ge).trans ?_
  rw [pointAfter_eq nonneg short inside value hx hx']
  rfl

end Points

end Record

/-! ## Proposals -/

section Proposals

variable {σ : Type} {i : RenewalInfo} {r : Record} {time : Option DateTime} {frequency : Option ℤ}

theorem proposal_of_stored (stored : i.record? = some r) (A : Authority σ) (s : σ)
    (h : Representable (instantOf A s time)) (frequency : Option ℤ) (fraction : Binary64) :
    proposal A frequency time fraction (i, s) =
      (r.proposal frequency (pointAt (instantOf A s time)) fraction, (i, s)) := by
  unfold proposal
  rw [Action.bind_of_ok (Action.onSecond_of_eq (utc_of_representable A s h) i),
    Action.bind_of_ok (record_of_some A s stored)]
  rfl

theorem representable_lastCheck (reachable : Reachable i) (stored : i.record? = some r)
    (left : ∀ f ∈ frequency, Representable (r.finish.instant - f)) :
    Representable (r.finish.instant - frequency.getD 0) := by
  cases frequency with
  | some f => exact left f rfl
  | none =>
    obtain ⟨ms, headers, t, stands⟩ := reachable.stands stored
    have less := stands.finish_lt
    have utc := (reachable.sound stored).finish_utc
    rw [Option.getD_none, sub_zero, Record.eq_pointAt utc,
      instant_pointAt (Record.instant_nonneg utc)]
    refine ⟨Record.instant_nonneg utc, ?_⟩
    rw [DateTime.instant, utc, Option.getD_some, sub_zero]
    exact_mod_cast less

/-- **A proposal lies in what is left of the window.** With a stored record, at a point in time
whose instant is representable, and with a check at every `frequency` microseconds or none, time is
left from the start of the window or now, whichever is later, to the last check before the end of
the window. There is no proposal exactly if nothing is left; and if less than `2 ^ 32` seconds are
left, every fraction from 0 to 1 has a proposal among them, on the UTC clock: the first moment for
0, the last one for 1, and never an earlier one for a greater fraction. -/
theorem proposal_within_rest (reachable : Reachable i) (stored : i.record? = some r)
    (A : Authority σ) (s : σ) (now : Representable (instantOf A s time))
    (left : ∀ f ∈ frequency, Representable (r.finish.instant - f)) :
    let low := max r.start.instant (instantOf A s time)
    let high := r.finish.instant - frequency.getD 0
    (∀ fraction, proposal A frequency time fraction (i, s) = (.ok none, (i, s)) ↔ high ≤ low) ∧
    (low < high → high - low < 2 ^ 32 * 1000000 →
      ∃ point : ℚ → ℤ, MonotoneOn point (Set.Icc 0 1) ∧ point 0 = low ∧ point 1 = high ∧
        ∀ fraction x, value? fraction = some x → x ∈ Set.Icc 0 1 →
          low ≤ point x ∧ point x ≤ high ∧
          ∃ t, proposal A frequency time fraction (i, s) = (.ok (some t), (i, s)) ∧
            t.offset = some 0 ∧ t.instant = point x) := by
  intro low high
  have sound := reachable.sound stored
  have last := representable_lastCheck reachable stored left
  have made (fraction : Binary64) := proposal_of_stored stored A s now frequency fraction
  refine ⟨fun fraction => ?_, fun more short => ?_⟩
  · rw [made fraction, ← Record.proposal_eq_none_iff sound now.1 last fraction]
    exact ⟨congrArg Prod.fst, congrArg (·, (i, s))⟩
  · have nonneg : 0 ≤ low := le_max_of_le_right now.1
    have brief : (high - low).toNat < 2 ^ 32 * 1000000 := by omega
    refine ⟨fun x => low + Record.share (high - low).toNat x, ?_, ?_, ?_,
      fun fraction x value hx => ?_⟩
    · intro x hx y _ h
      exact Int.add_le_add_left (Int.ofNat_le.mpr (Record.share_mono _ hx.1 h)) low
    · dsimp only
      rw [Record.share_zero, Nat.cast_zero, add_zero]
    · dsimp only
      rw [Record.share_one brief]
      omega
    · have most := Record.share_le brief hx.1 hx.2
      have first : low ≤ low + Record.share (high - low).toNat x := by omega
      have final : low + Record.share (high - low).toNat x ≤ high := by omega
      refine ⟨first, final, _, ?_, rfl, instant_pointAt (nonneg.trans first)⟩
      rw [made fraction,
        Record.proposal_eq_share sound now.1 last rfl rfl more brief value hx.1 hx.2]

/-- A window of the first two days of March 2026. -/
def firstDays : Record :=
  ⟨⟨63907920000000000, some 0⟩, ⟨63908092800000000, some 0⟩, .null, none⟩

/-- Renewal information after an update. -/
def firstDaysInfo : RenewalInfo :=
  ⟨"https://ca/info", some firstDays⟩

theorem reachable_firstDaysInfo : Reachable firstDaysInfo :=
  ⟨Int, suggesting "2026-03-01T00:00:00Z" "2026-03-03T00:00:00Z", .alone firstDaysInfo.location,
    [.info .update], march, rfl⟩

/-- At noon of the first day, with a check every day: a proposal for three quarters is not later
than the end of the first day. -/
theorem proposal_within_first_day :
    Reachable firstDaysInfo ∧ firstDaysInfo.record? = some firstDays ∧
      Representable (instantOf momentary march (some ⟨63907963200000000, none⟩)) ∧
      Representable (firstDays.finish.instant - 86400000000) ∧
      ∃ t, proposal momentary (some 86400000000) (some ⟨63907963200000000, none⟩)
          (.finite false 6755399441055744 (-53)) (firstDaysInfo, march) =
            (.ok (some t), (firstDaysInfo, march)) ∧
        63907963200000000 ≤ t.instant ∧ t.instant ≤ 63908006400000000 := by
  have left : Representable (firstDays.finish.instant - 86400000000) := by decide
  have daily : ∀ f ∈ some (86400000000 : ℤ), Representable (firstDays.finish.instant - f) :=
    fun f hf => Option.some.inj hf ▸ left
  have now : Representable (instantOf momentary march (some ⟨63907963200000000, none⟩)) := by decide
  obtain ⟨-, within⟩ := proposal_within_rest reachable_firstDaysInfo rfl momentary march now daily
  obtain ⟨point, -, -, -, points⟩ := within (by decide) (by decide)
  obtain ⟨first, final, t, made, -, same⟩ :=
    points (.finite false 6755399441055744 (-53)) (3 / 4) (congrArg some (by norm_num)) (by norm_num)
  exact ⟨reachable_firstDaysInfo, rfl, now, left, t, made, same ▸ first, same ▸ final⟩

end Proposals

end RenewalInfo

end AcmeClient
