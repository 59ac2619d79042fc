import AcmeClient.Proofs.RenewalInfo.Malformed
import AcmeClient.Proofs.Time.RetryAfter

/-!
# When to ask again

* `RenewalInfo.Record.retryOf_of_text`: the header that tells when to ask again is used;
* **`RenewalInfo.retry_used_or_ignored`**: whatever it holds is used or ignored, unless it is fatal.
-/

namespace AcmeClient

namespace RenewalInfo

open RetryAfter (Fatal FailsIff)

theorem Record.retryOf_of_text {headers : Headers} {text : String} {now : DateTime}
    (h : headers.get "Retry-After" = .text text) :
    retryOf headers now = RetryAfter.parse (.text text) now := by
  rw [retryOf_eq, ← Headers.get, h]

theorem offset_ofEpoch? {seconds : Int} {now : DateTime} (h : DateTime.ofEpoch? seconds = some now) :
    now.offset = some 0 := by
  unfold DateTime.ofEpoch? DateTime.ofTicks? at h
  split_ifs at h
  obtain rfl := Option.some.inj h
  rfl

/-- **What tells when to ask again is used or ignored, unless it is fatal.** At any time on the UTC
clock, a text is read as a time with a known offset or as nothing, and fails exactly if it is fatal.
So an update whose document holds a window stores it with what was read, or fails and keeps the
record that there was if the text is fatal; this failure is none of those that the client
reports. -/
theorem retry_used_or_ignored (text : String) :
    (∀ now : DateTime, now.offset = some 0 →
      FailsIff (Fatal text now) (RetryAfter.parse (.text text) now)) ∧
    ∀ (σ : Type) (A : Authority σ) (i : RenewalInfo) (s t : σ) (document : Value) (headers : Headers)
      (now a b : DateTime), A.requestResource i.location s = (.ok (document, headers), t) →
      DateTime.ofEpoch? (A.now t) = some now → headers.get "Retry-After" = .text text →
      Record.window document = .ok (a, b) → a.instant ≤ b.instant →
      (¬ Fatal text now ∧ ∃ r : Record,
          update A (i, s) = (.ok r, ({ i with record? := some r }, t)) ∧ r.start = a ∧ r.finish = b ∧
          RetryAfter.parse (.text text) now = .ok r.retryAfter) ∨
        Fatal text now ∧ ∃ e, update A (i, s) = (.error e, (i, t)) ∧ e.isOwn = false := by
  have parse {now : DateTime} (utc : now.offset = some 0) :=
    RetryAfter.failsIff_parse text (utc ▸ nofun : now.offset ≠ none)
  refine ⟨fun now => parse, fun σ A i s t document headers now a b answered time header window
    ordered => ?_⟩
  have fetched := fetch_of_answer A i answered time
  rw [Record.read_of_window window, if_neg (Int.not_lt.mpr ordered), Record.retryOf_of_text header]
    at fetched
  rcases parse (offset_ofEpoch? time) with ⟨fatal, e, he, foreign⟩ | ⟨harmless, o, ho, -⟩
  · rw [he] at fetched
    exact .inr ⟨fatal, e, update_of_error A fetched, foreign⟩
  · rw [ho] at fetched
    exact .inl ⟨harmless, _, update_of_ok A fetched, rfl, rfl, ho⟩

/-- Two days in March. -/
def days : Value :=
  .object [("suggestedWindow", .object [("start", .text "2026-03-01T00:00:00Z"),
    ("end", .text "2026-03-03T00:00:00Z")])]

/-- An authority that suggests them, and tells when to ask again. -/
def retrying (text : String) : Authority Int :=
  { Authority.general id (fun _ s => s) with
    requestResource := fun _ s => (.ok (days, .table [("Retry-After", .text text)]), s) }

/-- A date without year is ignored. -/
theorem retry_used_or_ignored_vague :
    ∃ r : Record, update (retrying "Mon, 2 Mar") (momentInfo, march) =
        (.ok r, ({ momentInfo with record? := some r }, march)) ∧ r.retryAfter = none := by
  have answered : (retrying "Mon, 2 Mar").requestResource momentInfo.location march =
      (.ok (days, .table [("Retry-After", .text "Mon, 2 Mar")]), march) := rfl
  have time : DateTime.ofEpoch? ((retrying "Mon, 2 Mar").now march) =
      some ⟨63907920000000000, some 0⟩ := rfl
  have header : (Headers.table [("Retry-After", .text "Mon, 2 Mar")]).get "Retry-After" =
      .text "Mon, 2 Mar" := rfl
  have window : Record.window days =
      .ok (⟨63907920000000000, some 0⟩, ⟨63908092800000000, some 0⟩) := rfl
  have read : RetryAfter.parse (.text "Mon, 2 Mar") ⟨63907920000000000, some 0⟩ = .ok none := rfl
  obtain ⟨parsed, updated⟩ := retry_used_or_ignored "Mon, 2 Mar"
  rcases updated Int (retrying "Mon, 2 Mar") momentInfo march march days _ _ _ _ answered time header
    window (by decide) with ⟨-, r, stored, -, -, same⟩ | ⟨fatal, -⟩
  · exact ⟨r, stored, (Except.ok.inj (read.symm.trans same)).symm⟩
  · rcases parsed ⟨63907920000000000, some 0⟩ rfl with ⟨-, e, he, -⟩ | ⟨harmless, -⟩
    · cases read.symm.trans he
    · exact absurd fatal harmless

/-- A digit without place value in the place of a delay. -/
theorem update_superscript :
    (∃ a b, Record.window days = .ok (a, b) ∧ a.instant ≤ b.instant) ∧
    (∃ e, RetryAfter.parse (.text "²") ⟨63907920000000000, some 0⟩ = .error e ∧ e.isOwn = false) ∧
    ∃ e, update (retrying "²") (momentInfo, march) = (.error e, (momentInfo, march)) :=
  ⟨⟨⟨63907920000000000, some 0⟩, ⟨63908092800000000, some 0⟩, rfl, by decide⟩, ⟨_, rfl, rfl⟩, _, rfl⟩

end RenewalInfo

end AcmeClient
