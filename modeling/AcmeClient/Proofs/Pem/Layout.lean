import AcmeClient.Proofs.Base64.Strict
import AcmeClient.Proofs.Certificate
import AcmeClient.Proofs.Text.Words

/-!
# The layout of PEM blocks

A block has a begin line, lines of 64 letters of which only the last one may be shorter, and an end
line. Octets have one such block under a label, so that all writers that keep to this layout agree.

* `Pem.Full`, `Pem.foldLines_flatten`: lines of full width, and how letters are folded into them;
* `Pem.letterLines`, **`Pem.full_letterLines`**: the lines for 48 octets each;
* `Pem.Layout`, `Pem.layout_ofLines`: the standard layout, and a writer that goes line by line;
* **`Pem.layout_write`**, **`Pem.Layout.eq_write`**: blocks have this layout, and no other text has;
* `Pem.Conforms`: another writer of certificates that keeps to the layout;
* **`Pem.standard_layout`**: such a writer gives the same blocks.
-/

namespace AcmeClient

namespace Pem

/-! ## Lines of full width -/

/-- All lines but the last one are full, and that one is not empty. -/
structure Full (ls : List (List Char)) : Prop where
  full : ∀ l ∈ ls.dropLast, l.length = 64
  last : ∀ l ∈ ls.getLast?, 1 ≤ l.length ∧ l.length ≤ 64

section Full

variable {l : List Char} {ls : List (List Char)}

theorem full_nil : Full [] :=
  ⟨nofun, nofun⟩

theorem full_singleton_iff : Full [l] ↔ 1 ≤ l.length ∧ l.length ≤ 64 :=
  ⟨fun h => h.last l rfl, fun h => ⟨nofun, fun _ same => Option.some.inj same ▸ h⟩⟩

theorem full_cons_iff (ne : ls ≠ []) : Full (l :: ls) ↔ l.length = 64 ∧ Full ls := by
  have front : (l :: ls).dropLast = l :: ls.dropLast := List.dropLast_cons_of_ne_nil ne
  have back : (l :: ls).getLast? = ls.getLast? := by
    obtain ⟨m, ms, rfl⟩ := List.exists_cons_of_ne_nil ne
    exact List.getLast?_cons_cons
  constructor
  · rintro ⟨full, last⟩
    rw [front, List.forall_mem_cons] at full
    rw [back] at last
    exact ⟨full.1, full.2, last⟩
  · rintro ⟨width, full, last⟩
    refine ⟨?_, ?_⟩
    · rw [front, List.forall_mem_cons]
      exact ⟨width, full⟩
    · rw [back]
      exact last

/-- Letters are folded into the only lines of full width. -/
theorem foldLines_flatten (h : Full ls) : foldLines ls.flatten = ls.flatMap (· ++ ['\n']) := by
  induction ls with
  | nil => exact foldLines_nil
  | cons l ls ih =>
    by_cases hn : ls = []
    · subst hn
      obtain ⟨least, most⟩ := full_singleton_iff.mp h
      have ne : l ≠ [] := List.length_pos_iff.mp least
      rw [List.flatten_singleton, foldLines_of_ne_nil ne, lineWidth, List.take_of_length_le most,
        List.drop_of_length_le most, foldLines_nil]
      simp
    · obtain ⟨width, rest⟩ := (full_cons_iff hn).mp h
      have ne : (l :: ls).flatten ≠ [] := by
        rw [List.flatten_cons]
        exact List.append_ne_nil_of_left_ne_nil (List.length_pos_iff.mp (by omega)) _
      rw [foldLines_of_ne_nil ne, List.flatten_cons, lineWidth, List.take_left' width,
        List.drop_left' width, ih rest]
      simp

end Full

/-! ## Lines of letters -/

variable (b : Octets)

/-- The lines that are written for 48 octets each. -/
def letterLines (b : Octets) : List (List Char) :=
  (Octets.blocks 48 b).map Base64.encode

theorem flatten_letterLines : (letterLines b).flatten = Base64.encode b := by
  unfold letterLines
  fun_induction Octets.blocks 48 b with
  | case1 b short nil =>
    rw [List.isEmpty_iff.mp nil]
    rfl
  | case2 b short ne => rw [List.map_singleton, List.flatten_singleton]
  | case3 b long ih =>
    -- a full line ends between two groups of letters, so that it has no padding
    have whole : (b.take 48).length % 3 = 0 := by
      rw [List.length_take_of_le (by omega)]
    rw [List.map_cons, List.flatten_cons, ih, ← Base64.encode_append whole, List.take_append_drop]

theorem letterLines_eq_nil_iff : letterLines b = [] ↔ b = [] := by
  constructor
  · intro h
    rw [← Base64.encode_eq_nil_iff, ← flatten_letterLines, h, List.flatten_nil]
  · rintro rfl
    rw [letterLines, Octets.blocks]
    rfl

/-- **The letters of 48 octets fill a line.** -/
theorem full_letterLines : Full (letterLines b) := by
  unfold letterLines
  fun_induction Octets.blocks 48 b with
  | case1 => exact full_nil
  | case2 b short ne =>
    have least : 0 < b.length := List.length_pos_iff.mpr fun h => ne (List.isEmpty_iff.mpr h)
    rw [List.map_singleton, full_singleton_iff, Base64.length_encode]
    omega
  | case3 b long ih =>
    have width : (b.take 48).length = 48 := List.length_take_of_le (by omega)
    have ne : letterLines (b.drop 48) ≠ [] := by
      rw [Ne, letterLines_eq_nil_iff, List.drop_eq_nil_iff]
      omega
    rw [List.map_cons]
    refine (full_cons_iff ne).mpr ⟨?_, ih⟩
    rw [Base64.length_encode, width]

theorem decode?_letterLines : Base64.decode? (letterLines b).flatten = some b := by
  rw [flatten_letterLines]
  exact Base64.decode?_encode b

variable {b}

theorem newline_notMem_letterLines {l : List Char} (h : l ∈ letterLines b) : '\n' ∉ l := by
  intro hc
  obtain ⟨a, -, rfl⟩ := List.mem_map.mp h
  cases (Base64.encode_ne a '\n' hc).2

/-! ## The standard layout -/

/-- The text `s` is the block of a label for the octets `b`: its lines, each with an end behind it,
are the begin line, the lines of a body, and the end line. -/
structure Layout (label : List Char) (b : Octets) (body : List (List Char)) (s : List Char) : Prop
    extends Full body where
  lines : Text.splitOn (· == '\n') s = beginLine label :: body ++ [endLine label, []]
  /-- The letters of the body stand for the octets. -/
  content : Base64.decode? body.flatten = some b

variable {label s : List Char} {body : List (List Char)}

/-- A block with the lines of a body. -/
def ofLines (label : List Char) (body : List (List Char)) : List Char :=
  (beginLine label :: body ++ [endLine label]).flatMap (· ++ ['\n'])

theorem write_eq_ofLines (full : Full body) (content : Base64.decode? body.flatten = some b) :
    write label b = ofLines label body := by
  rw [write, ← Base64.decode?_eq_some_iff.mp content, foldLines_flatten full, ofLines]
  simp

theorem splitOn_ofLines (plain : ∀ l ∈ beginLine label :: body ++ [endLine label], '\n' ∉ l) :
    Text.splitOn (· == '\n') (ofLines label body) =
      beginLine label :: body ++ [endLine label, []] := by
  rw [ofLines, Text.splitOn_flatMap plain, List.append_assoc]
  rfl

/-- A writer that goes line by line keeps to the layout. -/
theorem layout_ofLines (hl : '\n' ∉ label) (b : Octets) :
    Layout label b (letterLines b) (ofLines label (letterLines b)) where
  toFull := full_letterLines b
  lines := by
    have begins : '\n' ∉ beginLine label :=
      notMem_boundary (by decide +kernel) hl (by decide +kernel)
    have ends : '\n' ∉ endLine label :=
      notMem_boundary (by decide +kernel) hl (by decide +kernel)
    refine splitOn_ofLines fun l h => ?_
    rw [List.cons_append, List.mem_cons, List.mem_append, List.mem_singleton] at h
    rcases h with rfl | h | rfl
    · exact begins
    · exact newline_notMem_letterLines h
    · exact ends
  content := decode?_letterLines b

/-- **Every block has the standard layout.** -/
theorem layout_write (hl : '\n' ∉ label) (b : Octets) :
    Layout label b (letterLines b) (write label b) := by
  rw [write_eq_ofLines (full_letterLines b) (decode?_letterLines b)]
  exact layout_ofLines hl b

/-- **There is no other text with this layout.** -/
theorem Layout.eq_write (h : Layout label b body s) : s = write label b := by
  -- lines have no line end of their own, which also rules out labels that have one
  have plain : ∀ l ∈ beginLine label :: body ++ [endLine label], '\n' ∉ l := by
    intro l hl hc
    have part : l ∈ Text.splitOn (· == '\n') s := by
      rw [h.lines, List.append_cons]
      exact List.mem_append_left [[]] hl
    exact (Text.mem_of_mem_splitOn part '\n' hc).2 rfl
  apply Text.splitOn_injective '\n'
  rw [write_eq_ofLines h.toFull h.content, splitOn_ofLines plain]
  exact h.lines

/-! ## Other writers -/

/-- The PEM texts of certificates by another writer: blocks of their octets in standard layout. -/
def Conforms (own : Certificate → Except Error String) : Prop :=
  ∀ b c, Certificate.ofDer b = .ok c →
    ∃ s body, own c = .ok (String.ofList s) ∧ Layout "CERTIFICATE".toList b body s

/-- A writer of certificates that goes line by line. -/
def lineByLine (c : Certificate) : Except Error String :=
  c.encode.map fun b => String.ofList (ofLines "CERTIFICATE".toList (letterLines b))

theorem conforms_lineByLine : Conforms lineByLine := by
  intro b c h
  have layout : Layout "CERTIFICATE".toList b (letterLines b) _ := layout_ofLines (by decide) b
  refine ⟨_, _, ?_, layout⟩
  rw [lineByLine, Certificate.encode_of_ofDer h]
  rfl

/-- **Every block has the standard layout, and a writer that keeps to it writes the same.** A body
whose letters stand for the octets is between begin line and end line; all of its lines but the last
one have 64 letters, that one has 1 to 64, and without octets there is none. For a certificate that
can be read, any writer of certificates in this layout gives the block of its encoding. -/
theorem standard_layout :
    (∀ (label : List Char) (b : Octets), '\n' ∉ label →
      ∃ body, Layout label b body (write label b) ∧ (body = [] ↔ b = []) ∧
        Base64.decodeLenient? body.flatten = some b) ∧
    ∀ own, Conforms own → ∀ c : Certificate, c.Loadable →
      ∃ b, c.encode = .ok b ∧ own c = .ok (String.ofList (write "CERTIFICATE".toList b)) ∧
        own c = c.pem := by
  refine ⟨fun label b hl => ?_, fun own conforms c loadable => ?_⟩
  · refine ⟨letterLines b, layout_write hl b, letterLines_eq_nil_iff b, ?_⟩
    rw [flatten_letterLines]
    exact Base64.decodeLenient?_encode b
  · obtain ⟨b, read⟩ := Certificate.loadable_iff.mp loadable
    obtain ⟨s, body, written, layout⟩ := conforms b c read
    rw [layout.eq_write] at written
    have same : c.pem = own c := (Certificate.pem_of_ofDer read).trans written.symm
    exact ⟨b, Certificate.encode_of_ofDer read, written, same.symm⟩

/-- The block of a certificate, and the same block by a writer that goes line by line. -/
theorem standard_layout_smallest :
    let c : Certificate := ⟨7, .ok Certificate.smallest⟩
    (∃ body, Layout "CERTIFICATE".toList Certificate.smallest body
        (write "CERTIFICATE".toList Certificate.smallest) ∧ body ≠ []) ∧
      Conforms lineByLine ∧ c.Loadable ∧
      lineByLine c = .ok (String.ofList (write "CERTIFICATE".toList Certificate.smallest)) := by
  intro c
  obtain ⟨blocks, writers⟩ := standard_layout
  have loadable : c.Loadable := .inl ⟨_, Certificate.ofDer_smallest⟩
  obtain ⟨body, layout, empty, -⟩ := blocks "CERTIFICATE".toList Certificate.smallest (by decide)
  obtain ⟨b, encodes, written, -⟩ := writers lineByLine conforms_lineByLine c loadable
  obtain rfl : Certificate.smallest = b := Except.ok.inj encodes
  have lines : body ≠ [] := fun none => List.cons_ne_nil _ _ (empty.mp none)
  exact ⟨⟨body, layout, lines⟩, conforms_lineByLine, loadable, written⟩

end Pem

end AcmeClient
