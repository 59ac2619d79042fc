import AcmeClient.Proofs.Chain.Parsing

/-!
# The certificate itself in place of a chain

A body that is a certificate is read as that certificate, unless it holds the mark of PEM texts
somewhere, for example in a name. Then only PEM blocks within it are looked for. The certificate is
not among what they hold, since that is shorter.

* `Chain.parse_of_unmarked`: without the mark, the body is read as one certificate;
* `Chain.length_of_read`: what is read from the blocks within octets is shorter than these;
* **`Chain.single_iff_unmarked`**: what becomes of a body that is a certificate.
-/

namespace AcmeClient

namespace Chain

variable {b : Octets} {c : Certificate} {cs : List Certificate}

theorem length_asciiChars (b : Octets) : (asciiChars b).length = b.length :=
  List.length_map _

theorem parse_of_unmarked (hm : ¬ Octets.hasInfix marker b = true) (hn : b ≠ []) :
    parse b = (Certificate.ofDer b).map fun c => [c] := by
  rw [parse, if_neg hm, if_neg (by rwa [List.isEmpty_iff])]

theorem exists_block_of_read (h : Read b cs) (hc : c ∈ cs) :
    ∃ s ∈ blocks (asciiChars b), Certificate.ofPem s = .ok c := by
  obtain ⟨i, hi, rfl⟩ := List.mem_iff_getElem.mp hc
  have inside : i < (blocks (asciiChars b)).length := h.length_eq ▸ hi
  exact ⟨_, List.getElem_mem inside, h.get inside hi⟩

/-- What is read from the blocks within octets is shorter than these. -/
theorem length_of_read (h : Read b cs) (hc : c ∈ cs) :
    ∃ d, c.encode = .ok d ∧ d.length < b.length := by
  obtain ⟨s, hs, read⟩ := exists_block_of_read h hc
  obtain ⟨d, certificate, shorter⟩ := Certificate.exists_ofDer_of_ofPem read
  refine ⟨d, Certificate.encode_of_ofDer certificate, shorter.trans_le ?_⟩
  rw [← length_asciiChars b]
  exact length_of_mem_blocks hs

/-- **A body that is a certificate is read as this one exactly if it does not hold the mark of PEM
texts.** With the mark, what is read are the certificates in the PEM blocks within it: all of them
are shorter, so that this one is not among them. Where there is no whole block, it is an encoding
error. -/
theorem single_iff_unmarked (h : Certificate.ofDer b = .ok c) :
    (parseBody (.bytes b) = .ok [c] ↔ Octets.hasInfix marker b = false) ∧
    (Octets.hasInfix marker b = true →
      (∀ cs, parseBody (.bytes b) = .ok cs ↔ cs ≠ [] ∧ Read b cs) ∧
      (∀ cs, parseBody (.bytes b) = .ok cs →
        c ∉ cs ∧ ∀ d ∈ cs, ∃ e, d.encode = .ok e ∧ e.length < b.length) ∧
      ((∀ t ∈ openings (asciiChars b), ∀ r, ¬ Whole t r) →
        parseBody (.bytes b) = .error (.plain .encoding "No certificate found in PEM chain"))) := by
  have shorter : Octets.hasInfix marker b = true → ∀ cs, parse b = .ok cs →
      ∀ d ∈ cs, ∃ e, d.encode = .ok e ∧ e.length < b.length := fun hm cs read d hd =>
    length_of_read ((parse_of_marked hm).mp read).2 hd
  have other : Octets.hasInfix marker b = true → ∀ cs, parse b = .ok cs → c ∉ cs := by
    intro hm cs read hc
    obtain ⟨e, encodes, less⟩ := shorter hm cs read c hc
    rw [Certificate.encode_of_ofDer h] at encodes
    cases encodes
    exact lt_irrefl _ less
  refine ⟨⟨fun read => ?_, fun hm => ?_⟩, fun hm => ⟨fun _ => parse_of_marked hm, fun cs read =>
    ⟨other hm cs read, shorter hm cs read⟩, fun none_whole =>
      parse_of_no_blocks hm (blocks_eq_nil none_whole)⟩⟩
  · exact Bool.eq_false_iff.mpr fun hm => other hm [c] read List.mem_cons_self
  · have nonempty : b ≠ [] := by
      rintro rfl
      cases h
    rw [parseBody, parse_of_unmarked (Bool.eq_false_iff.mp hm) nonempty, h]
    rfl

/-- The certificate of few octets does not hold the mark. -/
theorem single_smallest : parseBody (.bytes Certificate.smallest) =
    .ok [⟨7, .ok Certificate.smallest⟩] :=
  (single_iff_unmarked Certificate.ofDer_smallest).1.mpr (by decide +kernel)

/-- A certificate of few octets, with the mark of PEM texts as the name of its subject. -/
def disguised : Octets :=
  [0x30, 0x5c, 0x30, 0x50] ++ (Certificate.smallest.drop 4).take 44
    ++ [0x30, 0x15, 0x31, 0x13, 0x30, 0x11, 0x06, 0x03, 0x55, 0x04, 0x03, 0x0c, 0x0a] ++ marker
    ++ Certificate.smallest.drop 63

/-- It is a certificate, but not as a chain. -/
theorem parse_disguised : Certificate.ofDer disguised = .ok ⟨7, .ok disguised⟩ ∧
    parseBody (.bytes disguised) =
      .error (.plain .encoding "No certificate found in PEM chain") := by
  have read : (X509.read? disguised).map (fun d => (d.serial, d.isKnown)) = some (7, true) := by
    decide +kernel
  have marked : Octets.hasInfix marker disguised = true := by decide +kernel
  have no_blocks : blocks (asciiChars disguised) = [] := by decide +kernel
  obtain ⟨d, hd, facts⟩ := Option.map_eq_some_iff.mp read
  obtain ⟨serial, known⟩ := Prod.mk.inj facts
  refine ⟨?_, parse_of_no_blocks marked no_blocks⟩
  rw [Certificate.ofDer_of_read? hd known, serial]

end Chain

end AcmeClient
