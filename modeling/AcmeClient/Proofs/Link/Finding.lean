import AcmeClient.Proofs.Link.Sent

/-!
# Finding links

* `Link.Innocuous`: quoted text that does not divide or name anything;
* `Link.Sent.Sound`: links in which other quoted text than relations is innocuous;
* **`Link.targetsOf_joined`**: in a value of such links exactly those with the relation are found;
* `Headers.Carries`: the ways in which headers hold the values of a name;
* **`Link.targets_exactly`**: so they are found, in order, however they are sent.
-/

namespace AcmeClient

namespace Headers

/-- Some fields hold these values of a name, apart from other fields. -/
inductive FieldsCarry (name : String) : List (String × Value) → List String → Prop
  | nil : FieldsCarry name [] []
  | field {n s fs vs} (same : lower n = lower name) (rest : FieldsCarry name fs vs) :
      FieldsCarry name ((n, .text s) :: fs) (s :: vs)
  | other {n v fs vs} (other : lower n ≠ lower name) (rest : FieldsCarry name fs vs) :
      FieldsCarry name ((n, v) :: fs) vs

/-- The headers hold these values of a name: in fields, or in a table as a list or a single text. -/
inductive Carries (name : String) : Headers → List String → Prop
  | missing : Carries name missing []
  | fields {fs vs} (h : FieldsCarry name fs vs) : Carries name (fields fs) vs
  | absent {ms} (h : ms.find? name = none) : Carries name (table ms) []
  | single {ms s} (h : ms.find? name = some (.text s)) : Carries name (table ms) [s]
  | several {ms vs} (h : ms.find? name = some (.list (vs.map .text))) : Carries name (table ms) vs

variable {name : String} {vs : List String}

theorem valuesOf_of_carry {fs : List (String × Value)} (h : FieldsCarry name fs vs) :
    valuesOf name fs = vs.map .text := by
  induction h with
  | nil => rfl
  | field same _ ih =>
    rw [valuesOf, List.filter_cons, if_pos (decide_eq_true same), List.map_cons, List.map_cons,
      ← ih]
    rfl
  | other other _ ih =>
    rw [valuesOf, List.filter_cons, if_neg (by simpa using other), ← ih]
    rfl

theorem all_of_carries {h : Headers} (carried : h.Carries name vs) : h.all name = vs.map .text := by
  cases carried with
  | missing => rfl
  | fields h => exact valuesOf_of_carry h
  | absent h => rw [all, Members.get, h]; rfl
  | single h => rw [all, Members.get, h]; rfl
  | several h => rw [all, Members.get, h]; rfl

end Headers

namespace Link

variable {q s t relation : List Char} {ls : List Sent}

/-! ## Quoted text -/

/-- Quoted text without a comma in which `rel` is set to no words behind any semicolon. -/
def Innocuous (q : List Char) : Prop :=
  ',' ∉ q ∧ ∀ part ∈ (parts q).tail, ∀ (gap front : Blanks) (v : List Char),
    part = gap.val ++ ("rel".toList ++ (front.val ++ '=' :: v)) → Text.words v = []

theorem relationsOf_eq_nil_iff (hq : '"' ∉ s) (hs : ';' ∉ s) :
    relationsOf s = [] ↔ ∀ (gap front : Blanks) (v : List Char),
      s = gap.val ++ ("rel".toList ++ (front.val ++ '=' :: v)) → Text.words v = [] := by
  have words {gap front v : List Char} (h : s = gap ++ ("rel".toList ++ (front ++ '=' :: v))) :
      Text.words (value v).1 = Text.words v := by
    have inside {c : Char} (hc : c ∉ s) : c ∉ v := fun hv => hc (by simp [h, hv])
    exact words_value (inside hq) (inside hs)
  constructor
  · intro none gap front v h
    rw [← words h, ← none, relationsOf_of_some
      (relText?_eq_some_iff.mpr ⟨gap.val, front.val, gap.property, front.property, h⟩)]
  · intro all
    cases hv : relText? s with
    | none => exact relationsOf_of_none hv
    | some v =>
      obtain ⟨gap, front, hg, hf, h⟩ := relText?_eq_some_iff.mp hv
      rw [relationsOf_of_some hv, words h, all ⟨gap, hg⟩ ⟨front, hf⟩ v h]

theorem innocuous_iff (hq : '"' ∉ q) : Innocuous q ↔ ',' ∉ q ∧ suggested q = [] := by
  refine and_congr_right fun _ => ?_
  rw [suggested, List.flatMap_eq_nil_iff]
  refine forall₂_congr fun part hpart => ?_
  have chars := Text.mem_of_mem_splitOn (List.mem_of_mem_tail hpart)
  exact (relationsOf_eq_nil_iff (fun h => hq (chars _ h).1) fun h => (chars _ h).2 rfl).symm

theorem innocuous_of_plain (h : ∀ c ∈ q, c ∉ [',', ';']) : Innocuous q := by
  have missing {c : Char} (hc : c ∈ [',', ';']) : c ∉ q := fun h' => h c h' hc
  refine ⟨missing (by decide), ?_⟩
  rw [parts_of_plain (missing (by decide))]
  exact fun _ h => absurd h List.not_mem_nil

/-- Neither a value of `rel` nor another quoted text divides anything. -/
def Param.Sound (p : Param) : Prop :=
  if p.IsRel then ∀ c ∈ p.value.content, c ∉ [',', ';'] else Innocuous p.value.content

def Sent.Sound (l : Sent) : Prop :=
  ∀ p ∈ l.params, p.Sound

theorem Param.Sound.comma {p : Param} (h : p.Sound) : ',' ∉ p.value.content := by
  unfold Sound at h
  split_ifs at h
  · exact fun hc => h _ hc (by decide)
  · exact h.1

theorem Param.Sound.semicolon {p : Param} (h : p.Sound) (rel : p.IsRel) : ';' ∉ p.value.content := by
  rw [Sound, if_pos rel] at h
  exact fun hc => h _ hc (by decide)

theorem Param.Sound.relations_eq {p : Param} (h : p.Sound) :
    p.relations = if p.IsRel then Text.words p.value.content else [] := by
  unfold Param.relations
  split_ifs with rel
  · rfl
  · rw [Sound, if_neg rel] at h
    exact ((innocuous_iff p.value.quote_not_mem).mp h).2

theorem Sent.Sound.relations_read {l : Sent} (h : l.Sound) : l.read.relations = l.relations := by
  rw [Link.relations_eq, Sent.read, relations_params fun p hp => (h p hp).semicolon, Sent.relations]
  exact List.flatMap_congr fun p hp => (h p hp).relations_eq

/-! ## Header values -/

/-- The targets of the links with a relation. -/
def found (relation : List Char) (ls : List Sent) : List (List Char) :=
  (ls.filter fun l => relation ∈ l.relations).map (·.target)

theorem found_cons (relation : List Char) (l : Sent) (ls : List Sent) : found relation (l :: ls) =
    (if relation ∈ l.relations then [l.target] else []) ++ found relation ls := by
  unfold found
  rw [List.filter_cons]
  by_cases h : relation ∈ l.relations
  · rw [if_pos (decide_eq_true h), if_pos h, List.map_cons, List.singleton_append]
  · rw [if_neg (by simpa using h), if_neg h, List.nil_append]

theorem found_append (relation : List Char) (ls ms : List Sent) :
    found relation (ls ++ ms) = found relation ls ++ found relation ms := by
  rw [found, List.filter_append, List.map_append]
  rfl

/-- **Exactly the links with the relation are found in a value.** -/
theorem targetsOf_joined (sound : ∀ l ∈ ls, l.Sound) :
    targetsOf relation (Sent.joined ls) = found relation ls := by
  rw [targetsOf, found, readAll_joined fun l hl p hp => (sound l hl p hp).comma, List.filter_map,
    List.map_map]
  refine congrArg _ (List.filter_congr fun l hl => ?_)
  rw [Function.comp_apply, (sound l hl).relations_read, List.contains_eq_mem]

/-- Links with commas between them, as the text of a header. -/
def headerText (ls : List Sent) : String :=
  String.ofList (Sent.joined ls)

theorem map_mapM {α β γ ε : Type} (f : α → Except ε β) (g : β → γ) (xs : List α) :
    (xs.mapM f).map (List.map g) = xs.mapM fun a => (f a).map g := by
  induction xs with
  | nil => rfl
  | cons a xs ih =>
    rw [List.mapM_cons, List.mapM_cons, ← ih]
    cases f a with
    | error e => rfl
    | ok b => cases xs.mapM f <;> rfl

theorem targetsIn_values {groups : List (List Sent)} (sound : ∀ ls ∈ groups, ∀ l ∈ ls, l.Sound)
    (relation base : List Char) :
    targetsIn relation base (groups.map fun ls => .text (headerText ls)) =
      (found relation groups.flatten).mapM (resolve base) := by
  induction groups with
  | nil => rfl
  | cons ls groups ih =>
    have rest := ih fun ms hm => sound ms (List.mem_cons_of_mem ls hm)
    have first : valueText (.text (headerText ls)) = .ok (Sent.joined ls) := by
      rw [valueText, headerText, String.toList_ofList]
    rw [List.map_cons, targetsIn, first, List.flatten_cons, found_append, List.mapM_append, ← rest,
      ← targetsOf_joined (sound ls List.mem_cons_self)]
    rfl

theorem targets_of_carries {groups : List (List Sent)} (sound : ∀ ls ∈ groups, ∀ l ∈ ls, l.Sound)
    {h : Headers} (carried : h.Carries "Link" (groups.map headerText)) (relation base : String) :
    targets h relation base = (found relation.toList groups.flatten).mapM fun t =>
      (resolve base.toList t).map String.ofList := by
  have all := (Headers.all_of_carries carried).trans (List.map_map ..)
  have values := targetsIn_values sound relation.toList base.toList
  dsimp only [Function.comp_def] at all
  rw [← map_mapM, ← values, targets, all]
  cases targetsIn relation.toList base.toList (groups.map fun ls => .text (headerText ls)) <;> rfl

/-- The values of the parameters have none of the characters that divide links. -/
def Sent.Plain (l : Sent) : Prop :=
  ∀ p ∈ l.params, ∀ c ∈ p.value.content, c ∉ ['<', '>', ',', ';', '"']

theorem Sent.Plain.sound {l : Sent} (h : l.Plain) : l.Sound := by
  intro p hp
  have inside : [',', ';'] ⊆ ['<', '>', ',', ';', '"'] := by decide
  have plain : ∀ c ∈ p.value.content, c ∉ [',', ';'] := fun c hc hd => h p hp c hc (inside hd)
  unfold Param.Sound
  split_ifs
  · exact plain
  · exact innocuous_of_plain plain

/-- **Exactly the links with a relation are found**, in the order in which they were sent and with
repetitions, however they are distributed over header values and whatever the headers are: without a
base their targets as they are, and else relative to the base. -/
theorem targets_exactly {groups : List (List Sent)} (plain : ∀ ls ∈ groups, ∀ l ∈ ls, l.Plain)
    {h : Headers} (carried : h.Carries "Link" (groups.map headerText)) (relation : String) :
    let found := groups.flatten.filter fun l => relation.toList ∈ l.relations
    targets h relation "" = .ok (found.map fun l => String.ofList l.target) ∧
      ∀ base, base ≠ "" → targets h relation base =
        found.mapM fun l => (Url.join base.toList l.target).map String.ofList := by
  have all (base : String) := (targets_of_carries (fun ls hls l hl => (plain ls hls l hl).sound)
    carried relation base).trans List.mapM_map
  refine ⟨(all "").trans List.mapM_pure, fun base ne => (all base).trans ?_⟩
  have resolved : resolve base.toList = Url.join base.toList := by
    funext target
    exact if_neg (by simpa [List.isEmpty_iff] using ne)
  rw [resolved]
  rfl

/-- Nothing or one space. -/
def noBlanks : Blanks :=
  ⟨[], fun _ h => absurd h List.not_mem_nil⟩

def oneSpace : Blanks :=
  ⟨[' '], List.all_eq_true.mp (by decide)⟩

/-- A link with one parameter `rel` behind a space. -/
def related (target : String) (h : '>' ∉ target.toList) (value : ParamValue) : Sent :=
  ⟨noBlanks, target.toList, h, noBlanks,
    [⟨relToken, value, oneSpace, noBlanks, noBlanks, noBlanks⟩]⟩

theorem plain_related {target : String} {h : '>' ∉ target.toList} {value : ParamValue}
    (plain : (value.content.all fun c => c ∉ ['<', '>', ',', ';', '"']) = true) :
    (related target h value).Plain := by
  intro p hp
  obtain rfl := List.mem_singleton.mp hp
  exact fun c hc => of_decide_eq_true (List.all_eq_true.mp plain c hc)

/-- Three links in two header values. -/
def threeLinks : List (List Sent) :=
  [[related "https://ca.example/1" (by decide) (.quoted "alternate up".toList (by decide)),
    related "</,;=" (by decide) (.token (.of "index" (by decide) (by decide)))],
    [related "2" (by decide) (.token (.of "alternate" (by decide) (by decide)))]]

/-- Two fields with names in upper and lower case. -/
def twoFields : Headers :=
  .fields [("link", .text "<https://ca.example/1>; rel=\"alternate up\",<</,;=>; rel=index"),
    ("Retry-After", .text "1"), ("LINK", .text "<2>; rel=alternate")]

theorem twoFields_carry : twoFields.Carries "Link" (threeLinks.map headerText) :=
  .fields (.field (by decide) (.other (by decide) (.field (by decide) .nil)))

theorem plain_threeLinks : ∀ ls ∈ threeLinks, ∀ l ∈ ls, l.Plain := by
  have first := @plain_related "https://ca.example/1" (by decide)
    (.quoted "alternate up".toList (by decide)) (by decide)
  have second := @plain_related "</,;=" (by decide) (.token (.of "index" (by decide) (by decide)))
    (by decide)
  have third := @plain_related "2" (by decide) (.token (.of "alternate" (by decide) (by decide)))
    (by decide)
  simpa [threeLinks] using ⟨⟨first, second⟩, third⟩

/-- Two of three links are alternates. -/
theorem targets_exactly_alternate :
    (∀ ls ∈ threeLinks, ∀ l ∈ ls, l.Plain) ∧ twoFields.Carries "Link" (threeLinks.map headerText) ∧
      targets twoFields "alternate" "" = .ok ["https://ca.example/1", "2"] :=
  ⟨plain_threeLinks, twoFields_carry,
    (targets_exactly plain_threeLinks twoFields_carry "alternate").1⟩

end Link

end AcmeClient
