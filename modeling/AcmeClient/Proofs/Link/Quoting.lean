import AcmeClient.Proofs.Link.Finding

/-!
# Quoted text in links

The reader does not know of quoted text: a comma in it ends the parameters of a link, and behind a
semicolon in it a parameter `rel` is read.

* `Link.Extended`: header values in which one link gets one more parameter;
* `Link.found_extended`: innocuous text does not change what is found;
* `Link.changes_of_comma`, `Link.changes_of_suggestion`: other text hides a link or fakes one;
* **`Link.unchanged_iff_innocuous`**: so the results stay exactly if the text is innocuous.
-/

namespace AcmeClient

namespace Link

/-- One link of the second header values has the parameter in addition, at any place. -/
inductive Extended (p : Param) : List (List Sent) → List (List Sent) → Prop
  | intro (earlier later : List (List Sent)) (front back : List Sent) (l : Sent)
      (before behind : List Param) (h : l.params = before ++ behind) :
      Extended p (earlier ++ (front ++ l :: back) :: later)
        (earlier ++ (front ++ { l with params := before ++ p :: behind } :: back) :: later)

variable {q relation : List Char} {p : Param} {groups groups' : List (List Sent)}

/-! ## Innocuous text -/

/-- A parameter that holds no relations does not change what is found. -/
theorem found_extended (h : Extended p groups groups') (other : ¬ p.IsRel) :
    found relation groups'.flatten = found relation groups.flatten := by
  obtain ⟨earlier, later, front, back, l, before, behind, params⟩ := h
  have same : Sent.relations { l with params := before ++ p :: behind } = l.relations := by
    simp only [Sent.relations, params, List.flatMap_append, List.flatMap_cons, if_neg other,
      List.nil_append]
  simp only [List.flatten_append, List.flatten_cons, found_append, found_cons, same]

theorem sound_extended (h : Extended p groups groups') (hp : p.Sound)
    (sound : ∀ ls ∈ groups, ∀ l ∈ ls, l.Sound) : ∀ ls ∈ groups', ∀ l ∈ ls, l.Sound := by
  obtain ⟨earlier, later, front, back, l, before, behind, params⟩ := h
  simp only [List.forall_mem_append, List.forall_mem_cons, Sent.Sound, params] at sound ⊢
  obtain ⟨hearlier, ⟨hfront, ⟨hbefore, hbehind⟩, hback⟩, hlater⟩ := sound
  exact ⟨hearlier, ⟨hfront, ⟨hbefore, hp, hbehind⟩, hback⟩, hlater⟩

/-! ## Other text -/

/-- Headers with a single text. -/
def alone (s : List Char) : Headers :=
  .table [("Link", .text (String.ofList s))]

theorem alone_carries (ls : List Sent) :
    (alone (Sent.joined ls)).Carries "Link" ([ls].map headerText) :=
  .single rfl

theorem targets_alone (relation : String) (s : List Char) :
    targets (alone s) relation "" = .ok ((targetsOf relation.toList s).map String.ofList) := by
  have resolved : (targetsOf relation.toList s).mapM (resolve []) =
      .ok (targetsOf relation.toList s) :=
    List.mapM_pure.trans (congrArg Except.ok (List.map_id' _))
  have values : targetsIn relation.toList [] [.text (String.ofList s)] =
      .ok (targetsOf relation.toList s) := by
    rw [targetsIn, valueText, String.toList_ofList]
    change (do let ts ← (targetsOf relation.toList s).mapM (resolve []); .ok (ts ++ [])) = _
    rw [resolved]
    exact congrArg Except.ok (List.append_nil _)
  change (do
    let ts ← targetsIn relation.toList [] [.text (String.ofList s)]
    .ok (ts.map String.ofList)) = _
  rw [values]
  rfl

/-- A parameter `title` with quoted text. -/
def titled (q : List Char) (plain : '"' ∉ q) : Param :=
  ⟨.of "title" (by decide) (by decide), .quoted q plain, noBlanks, noBlanks, noBlanks, noBlanks⟩

theorem not_isRel_titled (q : List Char) (plain : '"' ∉ q) : ¬ (titled q plain).IsRel :=
  show "title".toList ≠ "rel".toList by decide

variable {params rest target : List Char}

/-- Behind a comma a relation that is longer than everything in front of it is lost, and no link
with as long a target follows. -/
theorem not_mem_targetsOf (closed : '>' ∉ target) (hp : ',' ∉ params)
    (far : params.length + 1 < relation.length) (long : rest.length + 1 < target.length) :
    target ∉ targetsOf relation ('<' :: (target ++ '>' :: (';' :: params ++ ',' :: rest))) := by
  have plain : ',' ∉ ';' :: params := List.not_mem_cons_of_ne_of_not_mem (by decide) hp
  have read : read? ('<' :: (target ++ '>' :: (';' :: params ++ ',' :: rest))) =
      some (⟨target, ';' :: params⟩, ',' :: rest) :=
    @read?_text [] [] (';' :: params) target (',' :: rest) List.not_mem_nil closed
      noBlanks.property (Text.ends_cons ';' params) plain (Text.ends_cons ',' rest)
  rw [targetsOf, readAll_of_some read]
  intro h
  obtain ⟨l, hl, same⟩ := List.mem_map.mp h
  obtain ⟨hl, related⟩ := List.mem_filter.mp hl
  rcases List.mem_cons.mp hl with rfl | hl
  · have short := length_le_of_mem_relations (List.contains_iff_mem.mp related)
    rw [List.length_cons] at short
    omega
  · have short := length_target_le hl
    rw [same, List.length_cons] at short
    omega

/-- A text of `n` equal letters. -/
def letters (n : ℕ) : List Char :=
  List.replicate n 'x'

theorem not_mem_letters {c : Char} (h : c ≠ 'x') (n : ℕ) : c ∉ letters n := fun hc =>
  h (List.eq_of_mem_replicate hc)

/-- A link whose target and relation are letters. -/
def lettered (m n : ℕ) : Sent :=
  ⟨noBlanks, letters m, not_mem_letters (by decide) m, noBlanks,
    [⟨relToken, .quoted (letters n) (not_mem_letters (by decide) n), noBlanks, noBlanks, noBlanks,
      noBlanks⟩]⟩

theorem sound_lettered (m n : ℕ) : (lettered m n).Sound := by
  have rel : ∀ c ∈ letters n, c ∉ [',', ';'] := by
    intro c hc
    obtain rfl := List.eq_of_mem_replicate hc
    decide
  intro p hp
  obtain rfl := List.mem_singleton.mp hp
  exact (if_pos rfl).mpr rel

theorem length_params_lettered (m n : ℕ) :
    ((lettered m n).params.flatMap Param.text).length = n + 7 := by
  simp [letters, lettered, Param.text, Param.body, ParamValue.text, noBlanks, relToken]

theorem found_lettered (m : ℕ) {n : ℕ} (pos : n ≠ 0) :
    targetsOf (letters n) (Sent.joined [lettered m n]) = [letters m] := by
  have one : (lettered m n).relations = [letters n] := by
    have solid : Text.words (letters n) = [letters n] := by
      refine Text.words_of_solid (by simpa [letters] using pos) fun c hc => ?_
      obtain rfl := List.eq_of_mem_replicate hc
      decide
    change Text.words (letters n) ++ [] = _
    rw [solid, List.append_nil]
  rw [targetsOf_joined (by simpa using sound_lettered m n), found_cons,
    if_pos (one ▸ List.mem_singleton_self _)]
  rfl

/-- Adding a `title` with this text to some link leads to another result. -/
def Changes (q : List Char) (plain : '"' ∉ q) : Prop :=
  ∃ (l : Sent) (relation : List Char), l.Sound ∧
    targetsOf relation (Sent.joined [{ l with params := titled q plain :: l.params }]) ≠
      targetsOf relation (Sent.joined [l])

/-- **A comma hides the parameters behind it.** -/
theorem changes_of_comma (plain : '"' ∉ q) (comma : ',' ∈ q) : Changes q plain := by
  obtain ⟨front, rest, rfl, hf, ends⟩ := Text.exists_first_part ',' q
  rcases ends.eq_nil_or with rfl | ⟨back, rfl⟩
  · exact absurd comma (by rwa [List.append_nil])
  · -- the relation is longer than what stands before the comma, the target than what follows
    let n := front.length + 9
    let m := back.length + front.length + 30
    let params := "title=".toList ++ '"' :: front
    let rest := back ++ '"' :: (lettered m n).params.flatMap Param.text
    have spelled : Sent.joined [{ lettered m n with
        params := titled (front ++ ',' :: back) plain :: (lettered m n).params }] =
          '<' :: (letters m ++ '>' :: (';' :: params ++ ',' :: rest)) := by
      simp [Sent.joined, Sent.text, titled, lettered, Param.text, Param.body, ParamValue.text,
        noBlanks, params, rest]
    have far : params.length + 1 < (letters n).length := by simp [params, letters, n]
    have long : rest.length + 1 < (letters m).length := by
      simp only [rest, letters, List.length_append, List.length_cons, length_params_lettered,
        List.length_replicate, m, n]
      omega
    have lost := not_mem_targetsOf (not_mem_letters (by decide) m) (by simp [params, hf]) far long
    refine ⟨lettered m n, letters n, sound_lettered m n, fun same => lost ?_⟩
    rw [← spelled, same, found_lettered m (Nat.succ_ne_zero _)]
    exact List.mem_singleton_self _

/-- A link without parameters. -/
def bare : Sent :=
  ⟨noBlanks, [], List.not_mem_nil, noBlanks, []⟩

/-- **A suggested relation is found.** -/
theorem changes_of_suggestion (plain : '"' ∉ q) (comma : ',' ∉ q) (suggests : suggested q ≠ []) :
    Changes q plain := by
  obtain ⟨w, ws, hw⟩ := List.exists_cons_of_ne_nil suggests
  have sound : bare.Sound := nofun
  have nothing : targetsOf w (Sent.joined [bare]) = [] := by
    rw [targetsOf_joined (by simpa using sound)]
    rfl
  have relations : Link.relations (Sent.read { bare with params := [titled q plain] }) =
      suggested q := by
    have other := not_isRel_titled q plain
    rw [relations_eq, Sent.read, relations_params (by simp [other]), List.flatMap_singleton,
      Param.relations, if_neg other]
    rfl
  have read : readAll (Sent.joined [{ bare with params := [titled q plain] }]) =
      [Sent.read { bare with params := [titled q plain] }] :=
    readAll_joined (by simpa [titled, ParamValue.content] using comma)
  refine ⟨bare, w, sound, fun same => ?_⟩
  have found : [] ∈ targetsOf w (Sent.joined [{ bare with params := [titled q plain] }]) := by
    rw [targetsOf, read, List.filter_cons, if_pos (by simp [relations, hw])]
    exact List.mem_singleton_self _
  rw [nothing] at same
  exact List.not_mem_nil (same ▸ found)

/-- **Quoted text changes nothing exactly if it is innocuous**: adding a parameter other than `rel`
with this text to any link, at any place among its parameters, leaves the result as it is for every
relation and base, whatever the other links and the headers are. -/
theorem unchanged_iff_innocuous (plain : '"' ∉ q) :
    (∀ (p : Param) (groups groups' : List (List Sent)) (h h' : Headers) (relation base : String),
      p.value = .quoted q plain → ¬ p.IsRel → Extended p groups groups' →
      (∀ ls ∈ groups, ∀ l ∈ ls, l.Sound) → h.Carries "Link" (groups.map headerText) →
      h'.Carries "Link" (groups'.map headerText) →
        targets h' relation base = targets h relation base) ↔ Innocuous q := by
  constructor
  · intro unchanged
    by_contra harmful
    obtain ⟨l, relation, sound, changed⟩ : Changes q plain := by
      by_cases comma : ',' ∈ q
      · exact changes_of_comma plain comma
      · exact changes_of_suggestion plain comma fun none =>
          harmful ((innocuous_iff plain).mpr ⟨comma, none⟩)
    have same := unchanged (titled q plain) [[l]] _ _ _ (String.ofList relation) "" rfl
      (not_isRel_titled q plain) (.intro [] [] [] [] l [] l.params rfl) (by simpa using sound)
      (alone_carries _) (alone_carries _)
    rw [targets_alone, targets_alone, String.toList_ofList] at same
    have injective : Function.Injective String.ofList := fun _ _ => String.ofList_injective
    exact changed (List.map_injective_iff.mpr injective (Except.ok.inj same))
  · intro innocuous p groups groups' h h' relation base value other extended sound carried carried'
    have hp : p.Sound := by
      rw [Param.Sound, if_neg other, value]
      exact innocuous
    rw [targets_of_carries (sound_extended extended hp sound) carried',
      targets_of_carries sound carried, found_extended extended other]

/-- A link with the relation `index`. -/
def indexed : Sent :=
  related "https://a.example/1" (by decide) (.quoted "index".toList (by decide))

theorem plain_indexed : indexed.Plain :=
  plain_related (by decide)

/-- A title in which a bracket opens and a semicolon stands. -/
def bracketTitle : Param :=
  { titled "<b>; see up".toList (by decide) with gap := oneSpace }

/-- This title changes nothing. -/
theorem unchanged_iff_innocuous_bracket :
    '"' ∉ "<b>; see up".toList ∧ Innocuous "<b>; see up".toList ∧ ∀ relation base,
      targets (.table [("Link",
        .text "<https://a.example/1>; title=\"<b>; see up\"; rel=\"index\"")]) relation base =
          targets (.table [("Link", .text "<https://a.example/1>; rel=\"index\"")]) relation
            base := by
  have plain : '"' ∉ "<b>; see up".toList := by decide
  have innocuous : Innocuous "<b>; see up".toList := (innocuous_iff plain).mpr (by decide)
  have unchanged := (unchanged_iff_innocuous plain).mpr innocuous
  refine ⟨plain, innocuous, fun relation base => ?_⟩
  exact unchanged bracketTitle [[indexed]] _ _ _ relation base rfl (by decide)
    (.intro [] [] [] [] indexed [] indexed.params rfl) (by simpa using plain_indexed.sound)
    (.single rfl) (.single rfl)

/-- A title in which `rel` is set behind a semicolon. -/
def seeTitle : Param :=
  { titled "see; rel=alternate".toList (by decide) with gap := oneSpace }

/-- With this title the link has a relation that it does not have without. -/
theorem title_fakes_alternate :
    Extended seeTitle [[indexed]] [[{ indexed with params := seeTitle :: indexed.params }]] ∧
      ¬ seeTitle.IsRel ∧ indexed.Plain ∧
      headerText [indexed] = "<https://a.example/1>; rel=\"index\"" ∧
      headerText [{ indexed with params := seeTitle :: indexed.params }] =
        "<https://a.example/1>; title=\"see; rel=alternate\"; rel=\"index\"" ∧
      targets (.table [("Link", .text "<https://a.example/1>; rel=\"index\"")]) "alternate" "" =
        .ok [] ∧
      targets (.table [("Link",
        .text "<https://a.example/1>; title=\"see; rel=alternate\"; rel=\"index\"")]) "alternate" "" =
          .ok ["https://a.example/1"] :=
  ⟨.intro [] [] [] [] indexed [] indexed.params rfl, by decide, plain_indexed, rfl, rfl, rfl, rfl⟩

end Link

end AcmeClient
