import AcmeClient.CertificateResource
import AcmeClient.Proofs.Chain.Parsing

/-!
# Reading back chains

* `Chain.amid`: PEM blocks with texts before, between and behind them;
* `Chain.blocks_amid`: the blocks of such a text, if the other texts have no hyphen;
* **`Chain.parse_amid`**: certificates are read back from such a text, and from its octets.
-/

namespace AcmeClient

namespace Chain

variable {b : Octets} {r : List Char}

/-- The PEM blocks of encoded certificates, with a text before the first one and one behind each. -/
def amid (before : String) : List (Octets × String) → String
  | [] => before
  | (b, behind) :: ps =>
    before ++ (String.ofList (Pem.write "CERTIFICATE".toList b) ++ amid behind ps)

/-! ## One block -/

theorem isAscii_endLine : Text.IsAscii endLine :=
  Text.isAscii_of_all (by decide +kernel)

theorem block_eq (b : Octets) : Pem.block "CERTIFICATE".toList b =
    beginLine ++ '\n' :: Pem.foldLines (Base64.encode b) ++ endLine :=
  rfl

theorem isAscii_write (b : Octets) : Text.IsAscii (Pem.write "CERTIFICATE".toList b) := by
  intro c hc
  rw [Pem.write_eq, block_eq, List.mem_append, List.mem_append, List.mem_append,
    List.mem_cons] at hc
  rcases hc with ((hc | rfl | hc) | hc) | hc
  · exact isAscii_beginLine c hc
  · decide
  · rcases Pem.mem_foldLines hc with hc | rfl
    · exact Base64.encode_ascii b c hc
    · decide
  · exact isAscii_endLine c hc
  · rw [List.mem_singleton.mp hc]
    decide

theorem block?_block (b : Octets) (r : List Char) :
    block? (Pem.block "CERTIFICATE".toList b ++ r) =
      some (Pem.block "CERTIFICATE".toList b, r) := by
  have hyphens : '-' ∉ '\n' :: Pem.foldLines (Base64.encode b) := fun hc => by
    rcases List.mem_cons.mp hc with hc | hc
    · cases hc
    · exact Pem.hyphen_notMem_body b hc
  have whole := block?_whole (List.cons_ne_nil _ _) hyphens r
  rw [block_eq, List.append_assoc, List.append_assoc]
  exact whole

/-! ## Chains -/

theorem hyphen_notMem_asciiChars {s : String} (h : '-' ∉ s.toList) :
    '-' ∉ asciiChars (Octets.ofString s) := by
  rw [mem_asciiChars_iff (by decide), Octets.ofString_eq_ofChars]
  exact fun hc => h (Octets.mem_ofChars_ascii (by decide) hc)

theorem asciiChars_amid (before behind : String) (b : Octets) (ps : List (Octets × String)) :
    asciiChars (Octets.ofString (amid before ((b, behind) :: ps))) =
      asciiChars (Octets.ofString before) ++ (Pem.block "CERTIFICATE".toList b ++
        ('\n' :: asciiChars (Octets.ofString (amid behind ps)))) := by
  rw [amid, Octets.ofString_append, Octets.ofString_append, Octets.ofString_ofList,
    Octets.ofChars_ascii (isAscii_write b), asciiChars_append, asciiChars_append,
    asciiChars_ofAscii (isAscii_write b), Pem.write_eq, List.append_assoc]
  rfl

theorem blocks_amid {before : String} {ps : List (Octets × String)} (hb : '-' ∉ before.toList)
    (hps : ∀ p ∈ ps, '-' ∉ p.2.toList) :
    blocks (asciiChars (Octets.ofString (amid before ps))) =
      ps.map fun p => Pem.block "CERTIFICATE".toList p.1 := by
  induction ps generalizing before with
  | nil =>
    have text := blocks_append (s := []) (hyphen_notMem_asciiChars hb)
    rw [List.append_nil] at text
    exact text
  | cons p ps ih =>
    obtain ⟨b, behind⟩ := p
    have newline : ∀ s, blocks ('\n' :: s) = blocks s := fun s =>
      blocks_append (t := ['\n']) (by decide)
    rw [asciiChars_amid, blocks_append (hyphen_notMem_asciiChars hb),
      blocks_of_some (block?_block b _), newline,
      ih (hps _ List.mem_cons_self) fun p hp => hps p (List.mem_cons_of_mem _ hp)]
    rfl

theorem begins_marker (b : Octets) (r : Octets) :
    marker <+: Octets.ofAscii (Pem.write "CERTIFICATE".toList b) ++ r := by
  have ascii : marker <+: Octets.ofAscii beginLine := by
    rw [← List.isPrefixOf_iff_prefix]
    decide +kernel
  rw [Pem.write_eq, block_eq]
  simp only [Octets.ofAscii, List.map_append, List.append_assoc]
  exact ascii.trans (List.prefix_append _ _)

theorem hasInfix_amid (before : String) {ps : List (Octets × String)} (h : ps ≠ []) :
    Octets.hasInfix marker (Octets.ofString (amid before ps)) = true := by
  obtain ⟨⟨b, behind⟩, ps, rfl⟩ := List.exists_cons_of_ne_nil h
  rw [Octets.hasInfix_iff, amid, Octets.ofString_append, Octets.ofString_append,
    Octets.ofString_ofList, Octets.ofChars_ascii (isAscii_write b)]
  exact (begins_marker b _).isInfix.trans (List.suffix_append _ _).isInfix

theorem pemText_eq {ps : List (Octets × String)} {cs : List Certificate}
    (hcs : List.Forall₂ (fun p c => Certificate.ofDer p.1 = .ok c) ps cs)
    (hps : ∀ p ∈ ps, p.2 = "") : CertificateResource.pemText cs = .ok (amid "" ps) := by
  induction hcs with
  | nil => rfl
  | @cons p c ps cs hc hcs ih =>
    obtain ⟨b, behind⟩ := p
    obtain rfl : behind = "" := hps _ List.mem_cons_self
    rw [CertificateResource.pemText, Certificate.pem_of_ofDer hc,
      ih fun p hp => hps p (List.mem_cons_of_mem _ hp), amid, String.empty_append]
    rfl

/-- **Certificates are read back from the PEM blocks that are written for them**, all of them and in
their order, whatever texts without hyphens stand before, between and behind the blocks. The chain
that is written for them is such a text. -/
theorem parse_amid {before : String} {ps : List (Octets × String)} {cs : List Certificate}
    (nonempty : ps ≠ []) (hb : '-' ∉ before.toList) (hps : ∀ p ∈ ps, '-' ∉ p.2.toList)
    (hcs : List.Forall₂ (fun p c => Certificate.ofDer p.1 = .ok c) ps cs) :
    parseBody (.text (amid before ps)) = .ok cs ∧
      parseBody (.bytes (Octets.ofString (amid before ps))) = .ok cs ∧
      cs.map Certificate.encode = ps.map (fun p => .ok p.1) ∧
      (before = "" → (∀ p ∈ ps, p.2 = "") →
        CertificateResource.pemText cs = .ok (amid before ps)) := by
  have parsed : parse (Octets.ofString (amid before ps)) = .ok cs := by
    have read : Read (Octets.ofString (amid before ps)) cs := by
      rw [Read, blocks_amid hb hps, List.forall₂_map_left_iff]
      exact hcs.imp fun p c => Certificate.ofPem_block
    refine (parse_of_marked (hasInfix_amid before nonempty)).mpr ⟨?_, read⟩
    rintro rfl
    exact nonempty (List.forall₂_nil_right_iff.mp hcs)
  refine ⟨parsed, parsed, ?_, ?_⟩
  · clear parsed nonempty hps
    induction hcs with
    | nil => rfl
    | cons hc _ ih => rw [List.map_cons, List.map_cons, Certificate.encode_of_ofDer hc, ih]
  · rintro rfl empty
    exact pemText_eq hcs empty

/-- Two certificates with a note before each of them, and one beyond ASCII behind them. -/
theorem parse_amid_notes :
    let ps := [(Certificate.smallest, "Issuer:\n"), (Certificate.smallest, "été\n")]
    (∃ cs, cs.length = 2 ∧ parseBody (.text (amid "Certificate:\n" ps)) = .ok cs) ∧
      '-' ∉ "Certificate:\n".toList ∧ ∀ p ∈ ps, '-' ∉ p.2.toList := by
  intro ps
  have hb : '-' ∉ "Certificate:\n".toList := by decide
  have hps : ∀ p ∈ ps, '-' ∉ p.2.toList := by decide
  have hcs : List.Forall₂ (fun p c => Certificate.ofDer p.1 = .ok c) ps
      [⟨7, .ok Certificate.smallest⟩, ⟨7, .ok Certificate.smallest⟩] :=
    .cons Certificate.ofDer_smallest (.cons Certificate.ofDer_smallest .nil)
  exact ⟨⟨_, rfl, (parse_amid (List.cons_ne_nil _ _) hb hps hcs).1⟩, hb, hps⟩

end Chain

end AcmeClient
