import Mathlib.Data.List.Forall2
import AcmeClient.Proofs.Certificate
import AcmeClient.Proofs.Chain.Octets

/-!
# What chains are read as

* `mapM_eq_ok_iff`: results one by one;
* `Chain.parse_of_marked`: with the mark of PEM texts, the blocks are read one by one;
* `Chain.parseBody_ne_nil`: a chain has a first certificate;
* **`Chain.length_parse`**: every opening of a block has led to a certificate exactly in intact
  texts.
-/

namespace AcmeClient

theorem mapM_eq_ok_iff {α β : Type} {f : α → Except Error β} {l : List α} {r : List β} :
    l.mapM f = .ok r ↔ List.Forall₂ (fun a b => f a = .ok b) l r := by
  induction l generalizing r with
  | nil =>
    rw [List.forall₂_nil_left_iff]
    constructor
    · rintro ⟨⟩
      rfl
    · rintro rfl
      rfl
  | cons a l ih =>
    rw [List.mapM_cons, List.forall₂_cons_left_iff]
    cases ha : f a with
    | error e =>
      constructor
      · rintro ⟨⟩
      · rintro ⟨b, bs, ⟨⟩, -⟩
    | ok b =>
      cases hl : l.mapM f with
      | error e =>
        constructor
        · rintro ⟨⟩
        · rintro ⟨_, bs, -, h, -⟩
          rw [ih.mpr h] at hl
          cases hl
      | ok bs =>
        constructor
        · rintro ⟨⟩
          exact ⟨b, bs, rfl, ih.mp hl, rfl⟩
        · rintro ⟨_, bs', ⟨⟩, h, rfl⟩
          rw [ih.mpr h] at hl
          cases hl
          rfl

namespace Chain

variable {b : Octets} {cs : List Certificate} {v : Value}

/-- The certificates in the blocks of octets, in their order. -/
def Read (b : Octets) (cs : List Certificate) : Prop :=
  List.Forall₂ (fun p c => Certificate.ofPem p = .ok c) (blocks (asciiChars b)) cs

theorem parse_of_blocks (hm : Octets.hasInfix marker b = true) (h : blocks (asciiChars b) ≠ []) :
    parse b = .ok cs ↔ Read b cs := by
  rw [parse, if_pos hm]
  dsimp only
  rw [if_neg (by rwa [List.isEmpty_iff]), mapM_eq_ok_iff, Read]

theorem parse_of_no_blocks (hm : Octets.hasInfix marker b = true) (h : blocks (asciiChars b) = []) :
    parse b = .error (.plain .encoding "No certificate found in PEM chain") := by
  rw [parse, if_pos hm]
  dsimp only
  rw [if_pos (List.isEmpty_iff.mpr h)]

theorem parse_of_marked (hm : Octets.hasInfix marker b = true) :
    parse b = .ok cs ↔ cs ≠ [] ∧ Read b cs := by
  by_cases h : blocks (asciiChars b) = []
  · rw [parse_of_no_blocks hm h, Read, h, List.forall₂_nil_left_iff]
    exact ⟨nofun, fun ⟨hn, hc⟩ => absurd hc hn⟩
  · rw [parse_of_blocks hm h]
    refine ⟨fun hr => ⟨fun hc => h ?_, hr⟩, And.right⟩
    rw [Read, hc, List.forall₂_nil_right_iff] at hr
    exact hr

theorem parse_ne_nil (h : parse b = .ok cs) : cs ≠ [] := by
  by_cases hm : Octets.hasInfix marker b = true
  · exact ((parse_of_marked hm).mp h).1
  · rw [parse, if_neg hm] at h
    split at h
    · cases h
    · cases hd : Certificate.ofDer b with
      | error e =>
        rw [hd] at h
        cases h
      | ok c =>
        rw [hd] at h
        cases h
        exact List.cons_ne_nil _ _

/-- A chain has a first certificate. -/
theorem parseBody_ne_nil (h : parseBody v = .ok cs) : cs ≠ [] := by
  cases v with
  | text s => exact parse_ne_nil h
  | bytes b => exact parse_ne_nil h
  | _ => cases h

/-- **What becomes of the openings of blocks.** A result has at most as many certificates as the
begin line occurs in the octets, or in the text that they encode, and as many exactly if the text is
intact. Where no opening is that of a whole block, nothing is found. -/
theorem length_parse (hm : Octets.hasInfix marker b = true) :
    (∀ cs, parse b = .ok cs ↔ cs ≠ [] ∧ Read b cs) ∧
      (∀ cs, parse b = .ok cs → cs.length ≤ occurrences beginOctets b ∧
        (cs.length = occurrences beginOctets b ↔ Intact (asciiChars b))) ∧
      (∀ s, b = Octets.ofString s →
        occurrences beginOctets b = occurrences beginLine s.toList) ∧
      ((∀ t ∈ openings (asciiChars b), ∀ r, ¬ Whole t r) →
        parse b = .error (.plain .encoding "No certificate found in PEM chain")) := by
  refine ⟨fun _ => parse_of_marked hm, fun cs h => ?_, ?_, fun h => ?_⟩
  · have same : (blocks (asciiChars b)).length = cs.length :=
      ((parse_of_marked hm).mp h).2.length_eq
    rw [← same, ← length_openings_octets]
    exact length_blocks _
  · rintro s rfl
    rw [← length_openings_octets, length_openings_text]
  · exact parse_of_no_blocks hm (blocks_eq_nil h)

/-- A begin line with another one in the next line, which is that of a whole block. -/
def damaged : Octets :=
  Octets.ofAscii (beginLine ++ '\n' :: beginLine ++ Base64.encode Certificate.smallest ++ endLine)

/-- One certificate is found although two begin. -/
theorem length_parse_damaged : Octets.hasInfix marker damaged = true ∧
    (parse damaged).toOption.map List.length = some 1 ∧
    occurrences beginOctets damaged = 2 := by
  refine ⟨?_, ?_, ?_⟩ <;> decide +kernel

theorem damaged_not_intact :
    Octets.hasInfix marker damaged = true ∧ ¬ Intact (asciiChars damaged) := by
  have marked : Octets.hasInfix marker damaged = true := by decide +kernel
  have one : (parse damaged).toOption.map List.length = some 1 := by decide +kernel
  have two : occurrences beginOctets damaged = 2 := by decide +kernel
  refine ⟨marked, fun intact => ?_⟩
  cases h : parse damaged with
  | error e =>
    rw [h] at one
    cases one
  | ok cs =>
    rw [h] at one
    have length : cs.length = 1 := Option.some.inj one
    have all := ((length_parse marked).2.1 cs h).2.mpr intact
    rw [length, two] at all
    cases all

end Chain

end AcmeClient
