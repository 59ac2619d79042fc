import Mathlib.Data.List.Basic
import AcmeClient.Base64
import AcmeClient.Proofs.Text.Utf8
import AcmeClient.Text.Blank

/-!
# Reading back base 64

* `Base64.ofSextets?_sextets`: the octets of their six-bit values;
* `Base64.urlValue?_urlLetter`, `Base64.value?_letter`: the value of a letter;
* **`Base64.decodeUrl?_encodeUrl`**, **`Base64.decode?_encode`**: what is written in one of the
  alphabets is read back.
-/

namespace AcmeClient

namespace Base64

variable (b : Octets)

theorem ofSextets?_sextets : ofSextets? (sextets b) = some b := by
  induction b using sextets.induct with
  | case1 => rfl
  | case2 a =>
    have ha := a.toNat_lt
    rw [sextets, ofSextets?, if_pos (by omega), octet_eq (x := a) (by omega)]
  | case3 a b =>
    have ha := a.toNat_lt
    have hb := b.toNat_lt
    rw [sextets, ofSextets?, if_pos (by omega), octet_eq (x := a) (by omega),
      octet_eq (x := b) (by omega)]
  | case4 a b c r ih =>
    have ha := a.toNat_lt
    have hb := b.toNat_lt
    have hc := c.toNat_lt
    rw [sextets, ofSextets?, ih, octet_eq (x := a) (by omega), octet_eq (x := b) (by omega),
      octet_eq (x := c) (by omega)]
    rfl

theorem sextets_lt : ∀ v ∈ sextets b, v < 64 := by
  induction b using sextets.induct with
  | case1 => simp [sextets]
  | case2 a =>
    have ha := a.toNat_lt
    simp only [sextets, List.mem_cons, List.not_mem_nil, or_false]
    omega
  | case3 a b =>
    have ha := a.toNat_lt
    have hb := b.toNat_lt
    simp only [sextets, List.mem_cons, List.not_mem_nil, or_false]
    omega
  | case4 a b c r ih =>
    have ha := a.toNat_lt
    have hb := b.toNat_lt
    have hc := c.toNat_lt
    simp only [sextets, List.mem_cons]
    rintro v (rfl | rfl | rfl | rfl | hv)
    · omega
    · omega
    · omega
    · omega
    · exact ih v hv

theorem mapM_letters {letter : Nat → Char} {value? : Char → Option Nat}
    (h : ∀ v < 64, value? (letter v) = some v) :
    ((sextets b).map letter).mapM value? = some (sextets b) := by
  have hs := sextets_lt b
  generalize sextets b = vs at hs
  induction vs with
  | nil => rfl
  | cons v vs ih =>
    rw [List.map_cons, List.mapM_cons, h v (hs v List.mem_cons_self),
      ih fun w hw => hs w (List.mem_cons_of_mem v hw)]
    rfl

theorem urlValue?_urlLetter : ∀ v < 64, urlValue? (urlLetter v) = some v := by
  decide

/-- **What is written in the URL alphabet is read back.** -/
theorem decodeUrl?_encodeUrl : decodeUrl? (encodeUrl b) = some b := by
  rw [decodeUrl?, encodeUrl, String.toList_ofList, mapM_letters b urlValue?_urlLetter]
  exact ofSextets?_sextets b

/-! ## The standard alphabet -/

theorem value?_letter : ∀ v < 64, value? (letter v) = some v := by
  decide

theorem letter_ne : ∀ v < 64, letter v ≠ '=' ∧ letter v ≠ '-' ∧ !Char.isSpace (letter v) := by
  decide

theorem letters_ne : ∀ c ∈ (sextets b).map letter, c ≠ '=' ∧ c ≠ '-' ∧ !Char.isSpace c := by
  intro c hc
  obtain ⟨v, hv, rfl⟩ := List.mem_map.mp hc
  exact letter_ne v (sextets_lt b v hv)

theorem encode_ne : ∀ c ∈ encode b, c ≠ '-' ∧ !Char.isSpace c := by
  intro c hc
  rcases List.mem_append.mp hc with hc | hc
  · exact (letters_ne b c hc).2
  · rw [List.eq_of_mem_replicate hc]
    decide

theorem letter_ascii : ∀ v < 64, (letter v).toNat < 128 := by
  decide

theorem encode_ascii : ∀ c ∈ encode b, c.toNat < 128 := by
  intro c hc
  rcases List.mem_append.mp hc with hc | hc
  · obtain ⟨v, hv, rfl⟩ := List.mem_map.mp hc
    exact letter_ascii v (sextets_lt b v hv)
  · rw [List.eq_of_mem_replicate hc]
    decide

/-- **What is written in the standard alphabet is read back.** -/
theorem decode?_encode : decode? (encode b) = some b := by
  have stops : ∀ c ∈ (sextets b).map letter, decide (c ≠ '=') = true := fun c hc =>
    decide_eq_true (letters_ne b c hc).1
  have pad : (List.replicate (padding b.length) '=').takeWhile (fun c => decide (c ≠ '=')) = [] ∧
      (List.replicate (padding b.length) '=').dropWhile (fun c => decide (c ≠ '=')) =
        List.replicate (padding b.length) '=' := by
    cases padding b.length <;> exact ⟨rfl, rfl⟩
  rw [decode?, encode, List.takeWhile_append_of_pos stops, List.dropWhile_append_of_pos stops,
    pad.1, pad.2, List.append_nil, mapM_letters b value?_letter, Option.bind_eq_bind,
    Option.bind_some, ofSextets?_sextets]
  exact if_pos rfl

end Base64

end AcmeClient
