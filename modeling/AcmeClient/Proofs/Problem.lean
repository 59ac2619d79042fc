import AcmeClient.Proofs.Client.Refusals
import AcmeClient.Proofs.Json.RoundTrip

/-!
# Problem documents in all their forms

RFC 7807: a problem document says what was wrong with a request. It means the same whether it
arrives as octets, as a text or as an object that was read before. Whatever else arrives, the error
holds an object, and a text that is no document is the detail in it. Only a text that is nested
deeper than the reader follows is not reported at all.

* `Problem.report`: the error that reports a problem document;
* `Problem.Says`: the problem document that a body stands for;
* `Problem.ofBody_of_read`: the forms of one document;
* **`Problem.reported_alike`**: what is reported of a body.
-/

namespace AcmeClient

namespace Problem

/-- The error that reports a problem document. -/
def report (message : String) (code : Value) (ms : Members) : Error :=
  .transport (message ++ " (" ++ code.display ++ "): " ++ (detail ms).display) code ms

/-- The problem document that a body stands for. Octets are text with every fault replaced, and a
value that is no object says nothing. -/
inductive Says : Value → Members → Prop
  | octets {b : Octets} {ms : Members} (h : Means (Utf8.decodeLossy b) ms) : Says (.bytes b) ms
  | text {s : String} {ms : Members} (h : Means s ms) : Says (.text s) ms
  | object (ms : Members) : Says (.object ms) ms
  | other {v : Value} (octets : ∀ b, v ≠ .bytes b) (text : ∀ s, v ≠ .text s)
      (object : ∀ ms, v ≠ .object ms) : Says v []

variable {doc ms : Members} {s : String} {body code : Value}

theorem rejection_of_ofBody (h : ofBody body = .ok ms) (message : String) (code : Value) :
    rejection message code body = .ok (report message code ms) := by
  rw [rejection, h]
  rfl

/-- A document that was read from a text is meant by this text, by its octets and by itself. -/
theorem ofBody_of_read (h : Json.read s = .ok (.object doc)) :
    ∀ body ∈ [Value.object doc, .text s, .bytes (Octets.ofString s)], ofBody body = .ok doc := by
  have text : ofText s = .ok doc := by
    rw [ofText, h]
    rfl
  have octets : ofText (Utf8.decodeLossy (Octets.ofString s)) = .ok doc := by
    rw [Utf8.decodeLossy_ofString, text]
  simp only [List.forall_mem_cons]
  exact ⟨rfl, text, octets, nofun⟩

theorem says_of_ofBody (h : ofBody body = .ok ms) : Says body ms := by
  cases body with
  | bytes b => exact .octets (means_of_ofText h)
  | text s => exact .text (means_of_ofText h)
  | object ns =>
    cases h
    exact .object ns
  | _ =>
    cases h
    exact .other nofun nofun nofun

/-- **A problem document means the same in every form it arrives in.**

An object that a JSON text can hold has such a text, unless it is nested too deeply. The text, its
octets and the object itself are reported by one and the same error, with the object as the problem.
Of every body at all, an object is reported: the one that it stands for, which for a text that is no
document is this text as the detail. The one exception is a text that is nested deeper than the
reader follows, for which there is no report but the error of the reader. -/
theorem reported_alike (message : String) (code : Value) :
    (∀ n doc, Json.Legible n (.object doc) → n ≤ Json.depthLimit →
      ∃ s, Json.write? (.object doc) = some s ∧ Json.read s = .ok (.object doc)) ∧
    (∀ doc s, Json.read s = .ok (.object doc) →
      ∀ body ∈ [Value.object doc, .text s, .bytes (Octets.ofString s)],
        rejection message code body = .ok (report message code doc)) ∧
    ∀ body,
      (isDeep body = false → ∃ ms, Says body ms ∧
        rejection message code body = .ok (report message code ms)) ∧
      (isDeep body = true → rejection message code body = .error Json.Fault.deep.error) := by
  refine ⟨fun n doc legible shallow => ?_, fun doc s read body hb => ?_, fun body => ⟨fun flat => ?_,
    fun deep => ?_⟩⟩
  · obtain ⟨t, ht, -⟩ := Json.chars?_reads legible
    have written : Json.write? (.object doc) = some (String.ofList t) := by
      rw [Json.write?, ht]
      rfl
    exact ⟨_, written, Json.read_write? legible shallow written⟩
  · exact rejection_of_ofBody (ofBody_of_read read body hb) message code
  · cases h : ofBody body with
    | ok ms => exact ⟨ms, says_of_ofBody h, rejection_of_ofBody h message code⟩
    | error e => cases flat.symm.trans (ofBody_eq_error_iff.mp h).1
  · rw [rejection, ofBody_eq_error_iff.mpr ⟨deep, rfl⟩]
    rfl

/-- A refusal whose content is nothing but opening brackets is not reported. -/
theorem unreported_brackets :
    let body := Value.text (String.ofList (List.replicate 2000 '['))
    rejection "Request failed" (.int 500) body = .error (.plain .tooDeep "nesting too deep") ∧
      ∀ e, rejection "Request failed" (.int 500) body ≠ .ok e := by
  intro body
  have read : Json.read (String.ofList (List.replicate 2000 '[')) = .error .deep :=
    Json.read_deep (by decide)
  have failed : rejection "Request failed" (.int 500) body =
      .error (.plain .tooDeep "nesting too deep") := by
    rw [rejection, ofBody, ofText, read]
    rfl
  refine ⟨failed, fun e he => ?_⟩
  cases failed.symm.trans he

end Problem

end AcmeClient
