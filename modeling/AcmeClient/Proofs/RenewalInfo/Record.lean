import AcmeClient.Proofs.Action
import AcmeClient.Proofs.Time.Calendar
import AcmeClient.RenewalInfo.Record
import Mathlib.Data.Int.SuccPred
import Mathlib.Data.Int.ConditionallyCompleteOrder
import Mathlib.Order.Monotone.Defs

/-!
# Records that were read

* `RenewalInfo.Record.StandsIn`, **`RenewalInfo.Record.read_eq_ok_iff`**: where in a document and in
  headers stands what a record says;
* **`RenewalInfo.Record.StandsIn.sound`**: such a window does not end before it starts, and both
  ends are on the UTC clock;
* `RenewalInfo.Phase`, `RenewalInfo.Record.phase`: a window divides time into what is before, within
  and behind it;
* `RenewalInfo.Record.isEarly_eq`, `isOpen_eq`, `isOver_eq`: three comparisons tell the phase.
-/

namespace AcmeClient

theorem Headers.find?_eq_none {h : Headers} {name : String} (none : h.isPresent = false) :
    h.find? name = Option.none := by
  cases h with
  | missing => rfl
  | fields fs =>
    obtain rfl : fs = [] := by simpa [isPresent] using none
    rfl
  | table ms =>
    obtain rfl : ms = [] := by simpa [isPresent] using none
    rfl

namespace Timestamp

variable {t u : DateTime}

theorem offset_toUtc? (h : t.toUtc? = some u) : u.offset = some 0 := by
  unfold DateTime.toUtc? DateTime.ofTicks? at h
  split at h
  · cases h
    rfl
  · cases h

theorem offset_toUtc (h : toUtc t = .ok u) : u.offset = some 0 := by
  unfold toUtc at h
  split at h
  · split at h
    · cases h
    · cases h
      rfl
  · split at h
    · rename_i hu
      cases h
      exact offset_toUtc? hu
    · cases h

theorem offset_parse {v : Value} (h : parse v = .ok u) : u.offset = some 0 := by
  unfold parse at h
  split at h
  · unfold parseText at h
    split at h
    · cases h
    · split at h
      · cases h
      · exact offset_toUtc h
  · cases h
  · cases h

theorem ticks_lt_of_read? {s : List Char} (h : Notation.read? s = some t) :
    t.ticks < DateTime.tickCount := by
  unfold Notation.read? at h
  obtain ⟨d, -, h⟩ := Option.bind_eq_some_iff.mp h
  split at h
  · exact DateTime.ticks_lt_of_ofFields? h
  · obtain ⟨⟨c, o⟩, -, h⟩ := Option.bind_eq_some_iff.mp h
    exact DateTime.ticks_lt_of_ofFields? h

theorem ticks_lt_of_toUtc (ht : t.ticks < DateTime.tickCount) (h : toUtc t = .ok u) :
    u.ticks < DateTime.tickCount := by
  unfold toUtc at h
  split at h
  · split at h
    · cases h
    · cases h
      exact ht
  · split at h
    · rename_i hu
      cases h
      exact DateTime.ticks_lt_of_ofTicks? hu
    · cases h

theorem ticks_lt_of_parse {v : Value} (h : parse v = .ok u) : u.ticks < DateTime.tickCount := by
  unfold parse at h
  split at h
  · unfold parseText at h
    split at h
    · cases h
    · split at h
      · cases h
      · rename_i read
        exact ticks_lt_of_toUtc (ticks_lt_of_read? read) h
  · cases h
  · cases h

theorem exists_text_of_parse {v : Value} (h : parse v = .ok u) : ∃ s, v = .text s := by
  cases v with
  | text s => exact ⟨s, rfl⟩
  | _ => cases h

end Timestamp

namespace RenewalInfo

/-- Where a point in time lies. -/
inductive Phase where
  | before
  | within
  | behind
deriving DecidableEq

namespace Phase

/-- The place of a phase in time. -/
def rank : Phase → Nat
  | before => 0
  | within => 1
  | behind => 2

instance : LE Phase :=
  ⟨fun p q => p.rank ≤ q.rank⟩

instance : Preorder Phase where
  le_refl p := Nat.le_refl p.rank
  le_trans _ _ _ h h' := Nat.le_trans h h'

end Phase

namespace Record

variable {location : String} {document : Value} {headers : Headers} {now a b : DateTime}
  {r : Record}

/-- The window does not end before it starts, and both ends are on the UTC clock. -/
structure Sound (r : Record) : Prop where
  ordered : r.start.instant ≤ r.finish.instant
  start_utc : r.start.offset = some 0
  finish_utc : r.finish.offset = some 0

/-- What a record says stands in a document with these members and in headers that arrive at the
time `now`: its window is that of the document and does not end before it starts, the explanation is
a member of the document, if there is one, and when to ask again is what the header says. -/
structure StandsIn (r : Record) (ms : Members) (headers : Headers) (now : DateTime) : Prop where
  window : ∃ (w : Members) (start finish : String), ms.find? "suggestedWindow" = some (.object w) ∧
    w.find? "start" = some (.text start) ∧ w.find? "end" = some (.text finish) ∧
    Timestamp.parse (.text start) = .ok r.start ∧ Timestamp.parse (.text finish) = .ok r.finish
  ordered : r.start.instant ≤ r.finish.instant
  explanation : r.explanationUrl = (ms.find? "explanationURL").getD .null
  retry : RetryAfter.parse ((headers.find? "Retry-After").getD .null) now = .ok r.retryAfter

theorem memberOf_eq_ok_iff {name : String} {v u : Value} :
    memberOf name v = .ok u ↔ ∃ ms : Members, v = .object ms ∧ ms.find? name = some u := by
  cases v with
  | object ms => cases h : Members.find? ms name <;> simp [memberOf, h]
  | _ => simp [memberOf]

theorem window_eq_ok_iff : window document = .ok (a, b) ↔
    ∃ (ms w : Members) (start finish : String), document = .object ms ∧
      ms.find? "suggestedWindow" = some (.object w) ∧
      w.find? "start" = some (.text start) ∧ w.find? "end" = some (.text finish) ∧
      Timestamp.parse (.text start) = .ok a ∧ Timestamp.parse (.text finish) = .ok b := by
  unfold window
  constructor
  · intro h
    obtain ⟨w, hw, h⟩ := Action.except_bind_eq_ok_iff.mp h
    obtain ⟨v, hv, h⟩ := Action.except_bind_eq_ok_iff.mp h
    obtain ⟨start, hs, h⟩ := Action.except_bind_eq_ok_iff.mp h
    obtain ⟨u, hu, h⟩ := Action.except_bind_eq_ok_iff.mp h
    obtain ⟨finish, hf, h⟩ := Action.except_bind_eq_ok_iff.mp h
    cases h
    obtain ⟨ms, rfl, found⟩ := memberOf_eq_ok_iff.mp hw
    obtain ⟨ws, rfl, first⟩ := memberOf_eq_ok_iff.mp hv
    obtain ⟨ws', same, last⟩ := memberOf_eq_ok_iff.mp hu
    cases same
    obtain ⟨s, rfl⟩ := Timestamp.exists_text_of_parse hs
    obtain ⟨f, rfl⟩ := Timestamp.exists_text_of_parse hf
    exact ⟨ms, ws, s, f, rfl, found, first, last, hs, hf⟩
  · rintro ⟨ms, w, start, finish, rfl, found, first, last, hs, hf⟩
    simp only [memberOf, found, first, last, bind, Except.bind, hs, hf]

theorem retryOf_eq (headers : Headers) (now : DateTime) :
    retryOf headers now = RetryAfter.parse ((headers.find? "Retry-After").getD .null) now := by
  unfold retryOf
  split_ifs with present
  · rfl
  · rw [Headers.find?_eq_none (Bool.eq_false_iff.mpr present), Option.getD_none]

/-- **A record is read exactly if what it says stands in the document and the headers.** -/
theorem read_eq_ok_iff : read location document headers now = .ok r ↔
    ∃ ms, document = .object ms ∧ r.StandsIn ms headers now := by
  unfold read
  constructor
  · intro h
    obtain ⟨⟨a, b⟩, hw, h⟩ := Action.except_bind_eq_ok_iff.mp h
    obtain ⟨ms, w, start, finish, rfl, window⟩ :=
      window_eq_ok_iff.mp (wrapWhen_eq_ok_iff.mp hw)
    dsimp only at h
    split_ifs at h with reversed
    obtain ⟨t, ht, h⟩ := Action.except_bind_eq_ok_iff.mp h
    cases h
    rw [retryOf_eq] at ht
    exact ⟨ms, rfl, ⟨w, start, finish, window⟩, Int.not_lt.mp reversed, rfl, ht⟩
  · rintro ⟨ms, rfl, ⟨w, start, finish, window⟩, ordered, explanation, retry⟩
    refine Action.except_bind_eq_ok_iff.mpr ⟨(r.start, r.finish), wrapWhen_eq_ok_iff.mpr
      (window_eq_ok_iff.mpr ⟨ms, w, start, finish, rfl, window⟩), ?_⟩
    dsimp only
    rw [if_neg (Int.not_lt.mpr ordered), retryOf_eq, retry]
    exact congrArg (fun u => Except.ok (Record.mk _ _ u _)) explanation.symm

/-- **What stands in a document is sound.** -/
theorem StandsIn.sound {ms : Members} (h : r.StandsIn ms headers now) : r.Sound := by
  obtain ⟨w, start, finish, -, -, -, hs, hf⟩ := h.window
  exact ⟨h.ordered, Timestamp.offset_parse hs, Timestamp.offset_parse hf⟩

theorem StandsIn.finish_lt {ms : Members} (h : r.StandsIn ms headers now) :
    r.finish.ticks < DateTime.tickCount := by
  obtain ⟨w, start, finish, -, -, -, -, hf⟩ := h.window
  exact Timestamp.ticks_lt_of_parse hf

/-! ## Phases -/

/-- Where an instant lies. -/
def phase (r : Record) (n : Int) : Phase :=
  if n < r.start.instant then .before
  else if n < r.finish.instant then .within
  else .behind

/-- **As time passes, the phases follow one another.** -/
theorem phase_mono (r : Record) : Monotone r.phase := by
  intro m n h
  unfold phase
  split
  · split
    · exact Nat.le_refl _
    · split <;> exact Nat.zero_le _
  · have late : ¬ n < r.start.instant := by omega
    rw [if_neg late]
    split
    · split
      · exact Nat.le_refl _
      · exact Nat.le_succ _
    · have past : ¬ n < r.finish.instant := by omega
      rw [if_neg past]

variable (t : DateTime)

theorem isEarly_eq (r : Record) : r.isEarly t = decide (r.phase t.instant = .before) := by
  unfold isEarly phase
  split
  · rename_i early
    simp [early]
  · rename_i late
    split <;> simp [late]

theorem isOpen_eq (r : Record) : r.isOpen t = decide (r.phase t.instant = .within) := by
  unfold isOpen phase
  split
  · rename_i early
    simp [Int.not_le.mpr early]
  · rename_i late
    split
    · rename_i left
      simp [Int.not_lt.mp late, left]
    · rename_i past
      simp [past]

theorem Sound.isOver_eq (h : r.Sound) : r.isOver t = decide (r.phase t.instant = .behind) := by
  have ordered := h.ordered
  unfold isOver phase
  split
  · -- what has not started is not over, as the window does not end before it starts
    have left : ¬ r.finish.instant ≤ t.instant := by omega
    simp [left]
  · split
    · rename_i left
      simp [Int.not_le.mpr left]
    · rename_i past
      simp [Int.not_lt.mp past]

end Record

end RenewalInfo

end AcmeClient
