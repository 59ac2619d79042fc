import AcmeClient.Chain
import AcmeClient.Proofs.Text.Scanning

/-!
# Certificate blocks in a text

* `Chain.Whole`, `Chain.whole_iff`: a text starts with a whole block if one is found there;
* `Chain.blocks_of_some`, `Chain.blocks_of_none`: the search goes on behind a block, and else with
  the next character;
* `Chain.openings`, `Chain.Intact`: the places where a block begins, and the texts in which all of
  these blocks are whole and none begins before the end of another;
* **`Chain.length_blocks`**: there are at most as many blocks as openings, and as many exactly in
  intact texts.
-/

namespace AcmeClient

namespace Chain

variable {b r s t : List Char} {c : Char}

/-! ## One block -/

/-- A text starts with a whole block, behind which `r` follows. -/
def Whole (s r : List Char) : Prop :=
  ∃ body, body ≠ [] ∧ '-' ∉ body ∧ s = beginLine ++ (body ++ (endLine ++ r))

theorem beginLine_ne_nil : beginLine ≠ [] :=
  nofun

theorem head?_endLine : endLine.head? = some '-' :=
  rfl

theorem block?_whole {body : List Char} (hn : body ≠ []) (hd : '-' ∉ body) (r : List Char) :
    block? (beginLine ++ (body ++ (endLine ++ r))) = some (beginLine ++ body ++ endLine, r) := by
  have stops : ∀ c ∈ body, decide (c ≠ '-') = true := fun c hc =>
    decide_eq_true fun h => hd (h ▸ hc)
  obtain ⟨l, hl⟩ := List.head?_eq_some_iff.mp head?_endLine
  have ends : Text.Ends '-' (endLine ++ r) := hl ▸ Text.ends_cons '-' (l ++ r)
  rw [block?, Text.after?_append_self, Option.bind_eq_bind, Option.bind_some]
  dsimp only
  rw [Text.takeWhile_exact stops (ends.stop rfl), Text.dropWhile_exact stops (ends.stop rfl),
    if_neg (by rwa [List.isEmpty_iff]), Text.after?_append_self]
  rfl

theorem whole_of_block? (h : block? s = some (b, r)) :
    ∃ body, body ≠ [] ∧ '-' ∉ body ∧ b = beginLine ++ body ++ endLine ∧
      s = beginLine ++ (body ++ (endLine ++ r)) := by
  rw [block?, Option.bind_eq_bind, Option.bind_eq_some_iff] at h
  obtain ⟨u, hu, h⟩ := h
  rw [Text.after?_eq_some_iff] at hu
  dsimp only at h
  by_cases he : (u.takeWhile (· ≠ '-')).isEmpty
  · rw [if_pos he] at h
    cases h
  · rw [if_neg he, Option.bind_eq_some_iff] at h
    obtain ⟨r', hr, h⟩ := h
    rw [Text.after?_eq_some_iff] at hr
    cases h
    refine ⟨_, by rwa [List.isEmpty_iff] at he, fun hd => ?_, rfl, ?_⟩
    · simpa using List.mem_takeWhile_imp hd
    · rw [hu, ← hr, List.takeWhile_append_dropWhile]

theorem whole_iff : Whole s r ↔ ∃ b, block? s = some (b, r) := by
  constructor
  · rintro ⟨body, hn, hd, rfl⟩
    exact ⟨_, block?_whole hn hd r⟩
  · rintro ⟨b, h⟩
    obtain ⟨body, hn, hd, -, hs⟩ := whole_of_block? h
    exact ⟨body, hn, hd, hs⟩

theorem append_of_block? (h : block? s = some (b, r)) : s = b ++ r := by
  obtain ⟨body, -, -, rfl, rfl⟩ := whole_of_block? h
  simp only [List.append_assoc]

theorem begins_of_block? (h : block? s = some (b, r)) : beginLine <+: s := by
  obtain ⟨body, -, -, -, rfl⟩ := whole_of_block? h
  exact List.prefix_append _ _

theorem ne_nil_of_block? (h : block? s = some (b, r)) : b ≠ [] := by
  obtain ⟨body, hn, -, rfl, -⟩ := whole_of_block? h
  simp [hn]

theorem block?_of_head?_ne (h : s.head? ≠ some '-') : block? s = none := by
  cases hb : block? s with
  | none => rfl
  | some p =>
    obtain ⟨t, rfl⟩ := begins_of_block? (b := p.1) (r := p.2) hb
    exact absurd rfl h

/-! ## All blocks -/

theorem length_of_block? (h : block? s = some (b, r)) : r.length < s.length := by
  have := List.length_pos_iff.mpr (ne_nil_of_block? h)
  rw [append_of_block? h, List.length_append]
  omega

theorem blocksWithin_eq {n m : Nat} (hn : s.length ≤ n) (hm : s.length ≤ m) :
    blocksWithin n s = blocksWithin m s := by
  induction n generalizing s m with
  | zero =>
    obtain rfl := List.eq_nil_of_length_eq_zero (Nat.le_zero.mp hn)
    cases m <;> rfl
  | succ n ih =>
    cases s with
    | nil => cases m <;> rfl
    | cons c s =>
      rw [List.length_cons] at hn hm
      obtain ⟨m, rfl⟩ := Nat.exists_eq_add_of_le' (Nat.le_of_add_left_le hm)
      rw [blocksWithin, blocksWithin]
      cases h : block? (c :: s) with
      | none => exact ih (by omega) (by omega)
      | some p =>
        have shorter := length_of_block? (b := p.1) (r := p.2) h
        rw [List.length_cons] at shorter
        exact congrArg (p.1 :: ·) (ih (by omega) (by omega))

theorem blocks_of_some (h : block? s = some (b, r)) : blocks s = b :: blocks r := by
  have shorter := length_of_block? h
  cases s with
  | nil => cases shorter
  | cons c s =>
    rw [blocks, List.length_cons, blocksWithin, h]
    rw [List.length_cons] at shorter
    exact congrArg (b :: ·) (blocksWithin_eq (Nat.le_of_lt_succ shorter) le_rfl)

theorem blocks_of_none (h : block? (c :: s) = none) : blocks (c :: s) = blocks s := by
  rw [blocks, List.length_cons, blocksWithin, h, blocks]

theorem blocks_append (h : '-' ∉ t) : blocks (t ++ s) = blocks s := by
  induction t with
  | nil => rfl
  | cons c t ih =>
    rw [List.mem_cons, not_or] at h
    have start : (c :: (t ++ s)).head? ≠ some '-' := fun hc => h.1 (Option.some.inj hc).symm
    rw [List.cons_append, blocks_of_none (block?_of_head?_ne start), ih h.2]

theorem length_of_mem_blocks (h : b ∈ blocks s) : b.length ≤ s.length := by
  induction hn : s.length using Nat.strongRecOn generalizing s with
  | ind n ih =>
    subst hn
    cases s with
    | nil => cases h
    | cons c s =>
      cases hb : block? (c :: s) with
      | none =>
        rw [blocks_of_none hb] at h
        exact (ih _ (Nat.lt_succ_self s.length) h rfl).trans (Nat.le_succ _)
      | some p =>
        obtain ⟨first, r⟩ := p
        rw [blocks_of_some hb] at h
        rcases List.mem_cons.mp h with rfl | later
        · rw [append_of_block? hb, List.length_append]
          exact Nat.le_add_right _ _
        · have room := length_of_block? hb
          exact (ih _ room later rfl).trans room.le

/-! ## Openings -/

/-- The ends of a text that start with a begin line. -/
def openings : List Char → List (List Char)
  | [] => []
  | c :: s => if beginLine.isPrefixOf (c :: s) then (c :: s) :: openings s else openings s

/-- Every block that begins is whole, and no other one begins before its end. -/
def Intact (s : List Char) : Prop :=
  ∀ t ∈ openings s, ∃ r, Whole t r ∧ ∀ u ∈ openings s, u.length < t.length → u.length ≤ r.length

theorem openings_of_begins (h : beginLine <+: c :: s) :
    openings (c :: s) = (c :: s) :: openings s := by
  rw [openings, if_pos (List.isPrefixOf_iff_prefix.mpr h)]

theorem openings_of_not_begins (h : ¬ beginLine <+: c :: s) : openings (c :: s) = openings s := by
  rw [openings, if_neg fun hc => h (List.isPrefixOf_iff_prefix.mp hc)]

theorem length_of_mem_openings (h : t ∈ openings s) : t.length ≤ s.length := by
  induction s with
  | nil => cases h
  | cons c s ih =>
    rw [openings] at h
    split at h
    · rcases List.mem_cons.mp h with rfl | h
      · exact le_rfl
      · exact (ih h).trans (Nat.le_succ _)
    · exact (ih h).trans (Nat.le_succ _)

theorem mem_openings_iff : t ∈ openings s ↔ t <:+ s ∧ beginLine <+: t := by
  induction s with
  | nil =>
    refine ⟨nofun, fun ⟨hs, hb⟩ => ?_⟩
    rw [List.suffix_nil.mp hs, List.prefix_nil] at hb
    exact absurd hb beginLine_ne_nil
  | cons c s ih =>
    rw [List.suffix_cons_iff]
    by_cases hb : beginLine <+: c :: s
    · rw [openings_of_begins hb, List.mem_cons, ih]
      constructor
      · rintro (rfl | ⟨hs, ht⟩)
        · exact ⟨.inl rfl, hb⟩
        · exact ⟨.inr hs, ht⟩
      · rintro ⟨rfl | hs, ht⟩
        · exact .inl rfl
        · exact .inr ⟨hs, ht⟩
    · rw [openings_of_not_begins hb, ih]
      constructor
      · rintro ⟨hs, ht⟩
        exact ⟨.inr hs, ht⟩
      · rintro ⟨rfl | hs, ht⟩
        · exact absurd ht hb
        · exact ⟨hs, ht⟩

theorem blocks_eq_nil (h : ∀ t ∈ openings s, ∀ r, ¬ Whole t r) : blocks s = [] := by
  induction s with
  | nil => rfl
  | cons c s ih =>
    have here : block? (c :: s) = none := by
      cases hb : block? (c :: s) with
      | none => rfl
      | some p =>
        have opening : c :: s ∈ openings (c :: s) :=
          mem_openings_iff.mpr ⟨List.suffix_rfl, begins_of_block? (b := p.1) (r := p.2) hb⟩
        exact absurd (whole_iff.mpr ⟨p.1, hb⟩) (h _ opening p.2)
    have later : ∀ t ∈ openings s, ∀ r, ¬ Whole t r := fun t ht => by
      obtain ⟨suffix, begins⟩ := mem_openings_iff.mp ht
      exact h t (mem_openings_iff.mpr ⟨suffix.trans (List.suffix_cons c s), begins⟩)
    rw [blocks_of_none here, ih later]

theorem openings_append (t r : List Char) :
    ∃ before, openings (t ++ r) = before ++ openings r ∧ ∀ u ∈ before, r.length < u.length := by
  induction t with
  | nil => exact ⟨[], rfl, nofun⟩
  | cons c t ih =>
    obtain ⟨before, eq, longer⟩ := ih
    by_cases hb : beginLine <+: c :: (t ++ r)
    · refine ⟨(c :: (t ++ r)) :: before, ?_, ?_⟩
      · rw [List.cons_append, openings_of_begins hb, eq, List.cons_append]
      · intro u hu
        rcases List.mem_cons.mp hu with rfl | hu
        · simp only [List.length_cons, List.length_append]
          omega
        · exact longer u hu
    · exact ⟨before, by rw [List.cons_append, openings_of_not_begins hb, eq], longer⟩

/-- A text that starts with a whole block is intact if no other one begins within this block and the
rest is intact. -/
theorem intact_iff_of_some (h : block? s = some (b, r)) {before : List (List Char)}
    (eq : openings s = s :: (before ++ openings r)) (longer : ∀ u ∈ before, r.length < u.length)
    (shorter : ∀ u ∈ before, u.length < s.length) : Intact s ↔ before = [] ∧ Intact r := by
  have inside : ∀ u ∈ openings r, u.length ≤ r.length := fun u => length_of_mem_openings
  have room := length_of_block? h
  constructor
  · intro intact
    obtain ⟨r', whole, apart⟩ := intact s (by rw [eq]; exact List.mem_cons_self)
    obtain ⟨b', h'⟩ := whole_iff.mp whole
    obtain rfl : r = r' := by
      rw [h] at h'
      exact congrArg Prod.snd (Option.some.inj h')
    have none_before : before = [] := by
      refine List.eq_nil_iff_forall_not_mem.mpr fun u hu => ?_
      have mem : u ∈ openings s := by
        rw [eq]
        exact List.mem_cons_of_mem _ (List.mem_append_left _ hu)
      exact absurd (apart u mem (shorter u hu)) (Nat.not_le.mpr (longer u hu))
    subst none_before
    refine ⟨rfl, fun t ht => ?_⟩
    obtain ⟨q, whole, apart⟩ := intact t (by rw [eq]; exact List.mem_cons_of_mem _ ht)
    exact ⟨q, whole, fun u hu => apart u (by rw [eq]; exact List.mem_cons_of_mem _ hu)⟩
  · rintro ⟨rfl, intact⟩ t ht
    rw [List.nil_append] at eq
    rw [eq] at ht ⊢
    rcases List.mem_cons.mp ht with first | later
    · subst first
      refine ⟨r, whole_iff.mpr ⟨b, h⟩, fun u hu less => ?_⟩
      rcases List.mem_cons.mp hu with same | inner
      · exact absurd less (by rw [same]; exact lt_irrefl _)
      · exact inside u inner
    · obtain ⟨q, whole, apart⟩ := intact t later
      have within := inside t later
      refine ⟨q, whole, fun u hu less => ?_⟩
      rcases List.mem_cons.mp hu with same | inner
      · rw [same] at less
        omega
      · exact apart u inner less

/-- **There are at most as many blocks as openings, and as many exactly in intact texts.** -/
theorem length_blocks (s : List Char) :
    (blocks s).length ≤ (openings s).length ∧
      ((blocks s).length = (openings s).length ↔ Intact s) := by
  induction hn : s.length using Nat.strongRecOn generalizing s with
  | ind n ih =>
    subst hn
    cases s with
    | nil => exact ⟨le_rfl, fun _ => nofun, fun _ => rfl⟩
    | cons c s =>
      cases hb : block? (c :: s) with
      | none =>
        obtain ⟨le, iff⟩ := ih _ (Nat.lt_succ_self s.length) s rfl
        rw [blocks_of_none hb]
        by_cases begins : beginLine <+: c :: s
        · -- this block is not whole, and it is counted as an opening
          rw [openings_of_begins begins, List.length_cons]
          refine ⟨le.trans (Nat.le_succ _), fun h => by omega, fun intact => ?_⟩
          obtain ⟨r, whole, -⟩ := intact (c :: s) (by
            rw [openings_of_begins begins]
            exact List.mem_cons_self)
          obtain ⟨b, h⟩ := whole_iff.mp whole
          rw [hb] at h
          cases h
        · have same := openings_of_not_begins begins
          rw [Intact, same]
          exact ⟨le, iff⟩
      | some p =>
        obtain ⟨b, r⟩ := p
        have room := length_of_block? hb
        obtain ⟨le, iff⟩ := ih _ room r rfl
        obtain ⟨t, ht⟩ : ∃ t, s = t ++ r := by
          have split := append_of_block? hb
          cases b with
          | nil => exact absurd rfl (ne_nil_of_block? hb)
          | cons d b => exact ⟨b, (List.cons.inj split).2⟩
        obtain ⟨before, eq, longer⟩ := openings_append t r
        rw [← ht] at eq
        have all : openings (c :: s) = (c :: s) :: (before ++ openings r) := by
          rw [openings_of_begins (begins_of_block? hb), eq]
        have shorter : ∀ u ∈ before, u.length < (c :: s).length := fun u hu =>
          Nat.lt_succ_of_le (length_of_mem_openings (by rw [eq]; exact List.mem_append_left _ hu))
        rw [intact_iff_of_some hb all longer shorter, ← iff, blocks_of_some hb, all]
        simp only [List.length_cons, List.length_append]
        refine ⟨by omega, fun h => ?_, fun ⟨hnil, h⟩ => ?_⟩
        · exact ⟨List.eq_nil_of_length_eq_zero (by omega), by omega⟩
        · rw [hnil, List.length_nil]
          omega

end Chain

end AcmeClient
