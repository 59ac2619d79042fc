import AcmeClient.Pem
import AcmeClient.Proofs.Base64.Strict

/-!
# Reading back PEM blocks

A written block is read as what it was written from, whatever the length of its content. The letters
of its body are no hyphens and no line is empty, so that no marker is found too early and there is
no head.

* `Pem.splitAt?_append`, `Pem.splitAt?_of_notMem`: looking for a marker;
* `Pem.search_foldLines`: lines of letters hold no empty line;
* **`Pem.readAll?_block`**: the block for a label and octets is read back;
* **`Pem.length_find?`**: what a block holds is shorter than the text in which it is found.
-/

namespace AcmeClient

namespace Pem

/-! ## Markers -/

section Search

variable {m : Char} {ms s t : List Char}

theorem search_self (marker p r : List Char) : search marker p (p ++ r) = some (p, r) := by
  induction p with
  | nil => cases r <;> rfl
  | cons c p ih => rw [List.cons_append, search, if_pos rfl, ih, Option.map_some]

theorem search_append (h : m ∉ t) (s : List Char) :
    search (m :: ms) (m :: ms) (t ++ s) =
      (search (m :: ms) (m :: ms) s).map fun p => (t ++ p.1, p.2) := by
  induction t with
  | nil => simp
  | cons c t ih =>
    have hc : c ≠ m := fun hc => h (hc ▸ List.mem_cons_self)
    rw [List.cons_append, search, if_neg hc, ih fun ht => h (List.mem_cons_of_mem c ht),
      Option.map_map]
    rfl

theorem search_of_notMem (h : m ∉ t) : search (m :: ms) (m :: ms) t = none := by
  rw [← List.append_nil t, search_append h, search, Option.map_none]

theorem splitAt?_append {marker : List Char} (hm : marker.head? = some m) (h : m ∉ t)
    (r : List Char) : splitAt? marker (t ++ (marker ++ r)) = some (t, r) := by
  obtain ⟨ms, rfl⟩ := List.head?_eq_some_iff.mp hm
  rw [splitAt?, search_append h, search_self, Option.map_some, Option.map_some,
    List.length_append, Nat.add_sub_cancel, List.take_left]

theorem splitAt?_of_notMem {marker : List Char} (hm : marker.head? = some m) (h : m ∉ t) :
    splitAt? marker t = none := by
  obtain ⟨ms, rfl⟩ := List.head?_eq_some_iff.mp hm
  rw [splitAt?, search_of_notMem h, Option.map_none]

end Search

/-! ## Lines of letters -/

section FoldLines

variable {s : List Char}

theorem foldLines_nil : foldLines [] = [] := by
  rw [foldLines]
  rfl

theorem foldLines_of_ne_nil (h : s ≠ []) :
    foldLines s = s.take lineWidth ++ '\n' :: foldLines (s.drop lineWidth) := by
  rw [foldLines, dif_neg (by rwa [List.isEmpty_iff])]

theorem lines_induction {P : List Char → Prop} (nil : P [])
    (line : ∀ s, s ≠ [] → P (s.drop lineWidth) → P s) (s : List Char) : P s := by
  induction h : s.length using Nat.strongRecOn generalizing s with
  | ind n ih =>
    by_cases hs : s = []
    · rw [hs]
      exact nil
    · refine line s hs (ih _ ?_ _ rfl)
      have := List.length_pos_iff.mpr hs
      rw [List.length_drop, lineWidth]
      omega

theorem mem_foldLines {c : Char} (h : c ∈ foldLines s) : c ∈ s ∨ c = '\n' := by
  induction s using lines_induction with
  | nil =>
    rw [foldLines_nil] at h
    cases h
  | line s hs ih =>
    rw [foldLines_of_ne_nil hs] at h
    rcases List.mem_append.mp h with h | h
    · exact .inl (List.mem_of_mem_take h)
    · rcases List.mem_cons.mp h with h | h
      · exact .inr h
      · exact (ih h).imp_left List.mem_of_mem_drop

theorem filter_foldLines {p : Char → Bool} (newline : p '\n' = false) (h : ∀ c ∈ s, p c = true) :
    (foldLines s).filter p = s := by
  induction s using lines_induction with
  | nil => rw [foldLines_nil, List.filter_nil]
  | line s hs ih =>
    have front : (s.take lineWidth).filter p = s.take lineWidth :=
      List.filter_eq_self.mpr fun c hc => h c (List.mem_of_mem_take hc)
    rw [foldLines_of_ne_nil hs, List.filter_append, front,
      List.filter_cons_of_neg (by simp [newline]), ih fun c hc => h c (List.mem_of_mem_drop hc),
      List.take_append_drop]

/-- Letters in lines hold no empty line, also behind the end of a line. -/
theorem search_foldLines (h : '\n' ∉ s) :
    search ['\n', '\n'] ['\n'] (foldLines s) = none ∧
      search ['\n', '\n'] ['\n', '\n'] (foldLines s) = none := by
  induction s using lines_induction with
  | nil => rw [foldLines_nil]; exact ⟨rfl, rfl⟩
  | line s hs ih =>
    obtain ⟨behind, -⟩ := ih fun hn => h (List.mem_of_mem_drop hn)
    have front : '\n' ∉ s.take lineWidth := fun hn => h (List.mem_of_mem_take hn)
    have full : search ['\n', '\n'] ['\n', '\n'] (foldLines s) = none := by
      rw [foldLines_of_ne_nil hs, search_append front, search, if_pos rfl, behind]
      rfl
    refine ⟨?_, full⟩
    rw [foldLines_of_ne_nil hs] at full ⊢
    obtain ⟨c, t, ht⟩ : ∃ c t, s.take lineWidth = c :: t := by
      obtain ⟨c, t, rfl⟩ := List.exists_cons_of_ne_nil hs
      exact ⟨c, t.take (lineWidth - 1), rfl⟩
    have hc : c ≠ '\n' := fun hc => front (by rw [ht, hc]; exact List.mem_cons_self)
    -- the first letter of a line makes the search start anew
    rw [ht, List.cons_append, search, if_neg hc] at full ⊢
    exact full

theorem splitHead_foldLines (h : '\n' ∉ s) (hr : '\r' ∉ s) :
    splitHead (foldLines s) = ([], foldLines s) := by
  have lines : splitAt? ['\n', '\n'] (foldLines s) = none := by
    rw [splitAt?, (search_foldLines h).2, Option.map_none]
  have returns : splitAt? ['\r', '\n', '\r', '\n'] (foldLines s) = none := by
    refine splitAt?_of_notMem rfl fun hc => ?_
    rcases mem_foldLines hc with hc | hc
    · exact hr hc
    · cases hc
  rw [splitHead, lines, returns]
  rfl

end FoldLines

/-! ## Blocks -/

section Block

variable {label : List Char} (b : Octets)

theorem skipGap_of_head? {s : List Char} (h : ∀ c ∈ s.head?, Char.isSpace c = false) :
    skipGap s = s := by
  cases s with
  | nil => rfl
  | cons c s =>
    have hc := h c rfl
    refine List.dropWhile_cons_of_neg ?_
    intro gap
    have : c = ' ' ∨ c = '\t' ∨ c = '\n' ∨ c = '\r' := by simpa [or_assoc] using gap
    rcases this with rfl | rfl | rfl | rfl <;> cases hc

/-- The block for octets and a label, up to the end of its last line. -/
def block (label : List Char) (b : Octets) : List Char :=
  beginLine label ++ '\n' :: foldLines (Base64.encode b) ++ endLine label

theorem write_eq (label : List Char) : write label b = block label b ++ ['\n'] :=
  rfl

theorem hyphen_notMem_body : '-' ∉ foldLines (Base64.encode b) := fun hc => by
  rcases mem_foldLines hc with hc | hc
  · exact (Base64.encode_ne b '-' hc).1 rfl
  · cases hc

theorem skipGap_body (r : List Char) :
    skipGap ('\n' :: (foldLines (Base64.encode b) ++ ("-----END ".toList ++ r))) =
      foldLines (Base64.encode b) ++ ("-----END ".toList ++ r) := by
  refine skipGap_of_head? (s := foldLines (Base64.encode b) ++ ("-----END ".toList ++ r)) ?_
  have letters := Base64.encode_ne b
  cases he : Base64.encode b with
  | nil =>
    rw [foldLines_nil]
    rintro c ⟨⟩
    rfl
  | cons c s =>
    rw [he] at letters
    rw [foldLines_of_ne_nil (List.cons_ne_nil c s)]
    rintro d ⟨⟩
    simpa using (letters c List.mem_cons_self).2

theorem block_append (label : List Char) (r : List Char) :
    block label b ++ r = "-----BEGIN ".toList ++ (label ++ ("-----".toList ++
      '\n' :: (foldLines (Base64.encode b) ++ ("-----END ".toList ++
        (label ++ ("-----".toList ++ r)))))) := by
  unfold block beginLine endLine
  generalize "-----BEGIN ".toList = begins
  generalize "-----END ".toList = ends
  generalize "-----".toList = dashes
  simp

theorem readRaw?_block (hl : '-' ∉ label) (r : List Char) :
    readRaw? (block label b ++ r) =
      some (⟨label, foldLines (Base64.encode b), label⟩, skipGap r) := by
  have begins : "-----BEGIN ".toList.head? = some '-' := rfl
  have dashes : "-----".toList.head? = some '-' := rfl
  have ends : "-----END ".toList.head? = some '-' := rfl
  rw [block_append, ← List.nil_append (_ ++ _), readRaw?,
    splitAt?_append begins List.not_mem_nil, Option.bind_eq_bind, Option.bind_some]
  dsimp only
  rw [splitAt?_append dashes hl, Option.bind_some]
  dsimp only
  rw [skipGap_body, splitAt?_append ends (hyphen_notMem_body b), Option.bind_some]
  dsimp only
  rw [splitAt?_append dashes hl, Option.bind_some]

theorem check?_block (hn : label ≠ []) :
    (RawBlock.mk label (foldLines (Base64.encode b)) label).check? = some ⟨label, [], b⟩ := by
  have letters := Base64.encode_ne b
  have newline : '\n' ∉ Base64.encode b := fun h => by
    cases (letters '\n' h).2
  have return_ : '\r' ∉ Base64.encode b := fun h => by
    cases (letters '\r' h).2
  have valid : ¬ (label.isEmpty ∨ label ≠ label) := by
    simpa [List.isEmpty_iff] using hn
  rw [RawBlock.check?, if_neg valid]
  dsimp only
  rw [splitHead_foldLines newline return_]
  dsimp only
  rw [filter_foldLines rfl fun c hc => (letters c hc).2, Base64.decode?_encode]
  rfl

/-- **The block for a label and octets is read back**, also with white space behind it. -/
theorem readAll?_block (hl : '-' ∉ label) (hn : label ≠ []) {r : List Char} (hr : skipGap r = []) :
    readAll? (block label b ++ r) = some [⟨label, [], b⟩] := by
  obtain ⟨n, hlen⟩ : ∃ n, (block label b ++ r).length = n + 2 := by
    refine Nat.exists_eq_add_of_le' ?_
    have markers : 2 ≤ "-----BEGIN ".toList.length := by decide
    rw [block_append, List.length_append]
    exact Nat.le_add_right_of_le markers
  have raw : readRawAll (n + 2) (block label b ++ r) =
      [⟨label, foldLines (Base64.encode b), label⟩] := by
    rw [readRawAll, readRaw?_block b hl, hr]
    rfl
  rw [readAll?, hlen, raw, List.mapM_cons, check?_block b hn]
  rfl

theorem find?_block (hl : '-' ∉ label) (hn : label ≠ []) {labels : List String}
    (known : (labels.any fun l => l.toList = label) = true) :
    find? labels (block label b) = some ⟨label, [], b⟩ := by
  rw [← List.append_nil (block label b), find?, readAll?_block b hl hn rfl, Option.bind_eq_bind,
    Option.bind_some, List.find?_cons, known]

theorem notMem_boundary {c : Char} {marker dashes : List Char} (hm : c ∉ marker) (hl : c ∉ label)
    (hd : c ∉ dashes) : c ∉ marker ++ label ++ dashes := by
  simp [hm, hl, hd]

theorem return_notMem_block (hl : '\r' ∉ label) : '\r' ∉ block label b := by
  have body : '\r' ∉ foldLines (Base64.encode b) := fun h => by
    rcases mem_foldLines h with h | h
    · cases (Base64.encode_ne b '\r' h).2
    · cases h
  have begins : '\r' ∉ beginLine label := notMem_boundary (by decide +kernel) hl (by decide +kernel)
  have ends : '\r' ∉ endLine label := notMem_boundary (by decide +kernel) hl (by decide +kernel)
  simp [block, begins, body, ends]

end Block

/-! ## The extent of what is read -/

section Extent

variable {marker s t r : List Char}

theorem append_of_search {p : List Char} (h : search marker p s = some (t, r)) :
    s = t ++ r ∧ (p ≠ [] → t ≠ []) := by
  fun_induction search marker p s generalizing t with
  | case1 => cases h; exact ⟨rfl, fun hp => absurd rfl hp⟩
  | case2 => cases h
  | case3 m ms c s ih =>
    obtain ⟨q, hq, same⟩ := Option.map_eq_some_iff.mp h
    cases same
    exact ⟨congrArg (c :: ·) (ih hq).1, fun _ => List.cons_ne_nil _ _⟩

theorem length_of_splitAt? (hm : marker ≠ []) (h : splitAt? marker s = some (t, r)) :
    t.length + r.length < s.length := by
  obtain ⟨⟨t', r'⟩, hs, same⟩ := Option.map_eq_some_iff.mp h
  cases same
  obtain ⟨rfl, ne⟩ := append_of_search hs
  have room := List.length_pos_iff.mpr (ne hm)
  have := List.length_pos_iff.mpr hm
  simp only [List.length_take, List.length_append]
  omega

theorem length_skipGap (s : List Char) : (skipGap s).length ≤ s.length :=
  (List.dropWhile_sublist _).length_le

theorem length_of_readRaw? {b : RawBlock} (h : readRaw? s = some (b, r)) :
    b.body.length + r.length < s.length := by
  simp only [readRaw?, Option.bind_eq_bind, Option.bind_eq_some_iff] at h
  obtain ⟨⟨_, s₁⟩, begins, ⟨_, s₂⟩, label, ⟨body, s₃⟩, ends, ⟨_, s₄⟩, behind, same⟩ := h
  cases same
  have h₁ := length_of_splitAt? (by decide) begins
  have h₂ := length_of_splitAt? (by decide) label
  have h₃ := length_of_splitAt? (by decide) ends
  have h₄ := length_of_splitAt? (by decide) behind
  have before := length_skipGap s₂
  have after := length_skipGap s₄
  dsimp only at h₁ h₂ h₃ h₄ before after ⊢
  omega

theorem length_of_mem_readRawAll {n : Nat} {b : RawBlock} (h : b ∈ readRawAll n s) :
    b.body.length < s.length := by
  induction n generalizing s with
  | zero => cases h
  | succ n ih =>
    rw [readRawAll] at h
    cases hr : readRaw? s with
    | none =>
      rw [hr] at h
      cases h
    | some p =>
      have room := length_of_readRaw? (b := p.1) (r := p.2) hr
      rw [hr] at h
      rcases List.mem_cons.mp h with rfl | h
      · omega
      · have := ih h
        omega

theorem length_splitHead (s : List Char) : (splitHead s).2.length ≤ s.length := by
  unfold splitHead
  cases lines : splitAt? ['\n', '\n'] s with
  | some p =>
    have := length_of_splitAt? (t := p.1) (r := p.2) (by decide) lines
    exact Nat.le_of_lt (Nat.lt_of_le_of_lt (Nat.le_add_left _ _) this)
  | none =>
    cases returns : splitAt? ['\r', '\n', '\r', '\n'] s with
    | some p =>
      have := length_of_splitAt? (t := p.1) (r := p.2) (by decide) returns
      exact Nat.le_of_lt (Nat.lt_of_le_of_lt (Nat.le_add_left _ _) this)
    | none => exact Nat.le_refl _

theorem length_of_check? {b : RawBlock} {p : Block} (h : b.check? = some p) :
    p.content.length ≤ b.body.length := by
  simp only [RawBlock.check?, Option.ite_none_left_eq_some, Option.bind_eq_bind,
    Option.bind_eq_some_iff] at h
  obtain ⟨-, content, letters, _, -, ⟨⟩⟩ := h
  calc content.length ≤ _ := Base64.length_decode? letters
    _ ≤ (splitHead b.body).2.length := List.length_filter_le _ _
    _ ≤ b.body.length := length_splitHead _

/-- **What a block holds is shorter than the text in which it is found.** -/
theorem length_find? {labels : List String} {p : Block} (h : find? labels s = some p) :
    p.content.length < s.length := by
  obtain ⟨ps, read, found⟩ := Option.bind_eq_some_iff.mp h
  have each := mapM_eq_some_iff.mp read
  have mem : some p ∈ (readRawAll s.length s).map RawBlock.check? := by
    rw [each]
    exact List.mem_map_of_mem (List.mem_of_find?_eq_some found)
  obtain ⟨b, hb, check⟩ := List.mem_map.mp mem
  exact Nat.lt_of_le_of_lt (length_of_check? check) (length_of_mem_readRawAll hb)

end Extent

end Pem

end AcmeClient
