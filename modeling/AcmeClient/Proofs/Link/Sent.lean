import AcmeClient.Proofs.Link.Reading

/-!
# Links as they are sent

* `Link.Blanks`, `Link.Token`, `Link.Param`, `Link.Sent`: links with their spelling, which allows
  blanks around every separator;
* `Link.Sent.relations`: the words of all parameters `rel`;
* `Link.suggested`: the relations that are read of a quoted text, though none are meant;
* `Link.relations_params`: what is read of parameters;
* **`Link.readAll_joined`**: links with commas between them are read back.
-/

namespace AcmeClient

namespace Link

/-! ## Spelling -/

/-- Blanks, or nothing. -/
def Blanks : Type :=
  {s : List Char // ∀ c ∈ s, Char.isBlank c = true}

/-- The characters of a token. -/
def isTokenChar (c : Char) : Bool :=
  !Char.isBlank c && c ∉ ['<', '>', ',', ';', '"', '=']

/-- A token. -/
def Token : Type :=
  {s : List Char // s ≠ [] ∧ ∀ c ∈ s, isTokenChar c = true}

/-- The token with this text. -/
def Token.of (s : String) (ne : s.toList ≠ []) (h : s.toList.all isTokenChar = true) : Token :=
  ⟨s.toList, ne, List.all_eq_true.mp h⟩

@[simp] theorem Token.val_of (s : String) (ne : s.toList ≠ [])
    (h : s.toList.all isTokenChar = true) : (Token.of s ne h).val = s.toList :=
  rfl

def relToken : Token :=
  .of "rel" (by decide) (by decide)

/-- The value of a parameter, a token or a quoted text. -/
inductive ParamValue where
  | token (t : Token)
  | quoted (s : List Char) (plain : '"' ∉ s)

/-- The value itself. -/
def ParamValue.content : ParamValue → List Char
  | token t => t.val
  | quoted s _ => s

def ParamValue.text : ParamValue → List Char
  | token t => t.val
  | quoted s _ => '"' :: (s ++ ['"'])

/-- A parameter of a link. -/
structure Param where
  name : Token
  value : ParamValue
  /-- Blanks behind the semicolon. -/
  gap : Blanks
  /-- Blanks in front of the equals sign. -/
  front : Blanks
  /-- Blanks behind the equals sign. -/
  back : Blanks
  /-- Blanks at the end. -/
  trail : Blanks

namespace Param

/-- A parameter without its semicolon. -/
def body (p : Param) : List Char :=
  p.gap.val ++ (p.name.val ++ (p.front.val ++ '=' :: (p.back.val ++ (p.value.text ++ p.trail.val))))

def text (p : Param) : List Char :=
  ';' :: p.body

/-- The parameter that holds relations. -/
def IsRel (p : Param) : Prop :=
  p.name.val = "rel".toList

instance (p : Param) : Decidable p.IsRel :=
  inferInstanceAs (Decidable (p.name.val = _))

end Param

/-- A link. -/
structure Sent where
  /-- Blanks at the start. -/
  lead : Blanks
  target : List Char
  closed : '>' ∉ target
  /-- Blanks behind the target. -/
  trail : Blanks
  params : List Param

namespace Sent

/-- The relations of a link. -/
def relations (l : Sent) : List (List Char) :=
  l.params.flatMap fun p => if p.IsRel then Text.words p.value.content else []

def text (l : Sent) : List Char :=
  l.lead.val ++ '<' :: (l.target ++ '>' :: (l.trail.val ++ l.params.flatMap Param.text))

/-- What is read of a link. -/
def read (l : Sent) : Link :=
  ⟨l.target, l.params.flatMap Param.text⟩

/-- Links with commas between them. -/
def joined (ls : List Sent) : List Char :=
  [','].intercalate (ls.map text)

end Sent

variable {r s t : List Char} {c : Char}

/-! ## Characters -/

theorem Blanks.not_mem (b : Blanks) (h : Char.isBlank c = false) : c ∉ b.val := fun hc =>
  Bool.false_ne_true (h.symm.trans (b.property c hc))

theorem Token.not_mem (t : Token) (h : isTokenChar c = false) : c ∉ t.val := fun hc =>
  Bool.false_ne_true (h.symm.trans (t.property.2 c hc))

theorem ParamValue.quote_not_mem (v : ParamValue) : '"' ∉ v.content := by
  cases v with
  | token t => exact t.not_mem rfl
  | quoted s plain => exact plain

theorem ParamValue.mem_text {v : ParamValue} (h : c ∈ v.text) : c = '"' ∨ c ∈ v.content := by
  cases v with
  | token t => exact .inr h
  | quoted s plain =>
    rcases List.mem_cons.mp h with rfl | h
    · exact .inl rfl
    · rcases List.mem_append.mp h with h | h
      · exact .inr h
      · exact .inl (List.mem_singleton.mp h)

theorem Param.mem_body {p : Param} (h : c ∈ p.body) (blank : Char.isBlank c = false)
    (token : isTokenChar c = false) (other : c ∉ ['=', '"']) : c ∈ p.value.content := by
  simp only [List.mem_cons, List.not_mem_nil, or_false, not_or] at other
  simp only [body, List.mem_append, List.mem_cons] at h
  rcases h with h | h | h | h | h | h | h
  · exact absurd h (p.gap.not_mem blank)
  · exact absurd h (p.name.not_mem token)
  · exact absurd h (p.front.not_mem blank)
  · exact absurd h other.1
  · exact absurd h (p.back.not_mem blank)
  · exact (ParamValue.mem_text h).resolve_left other.2
  · exact absurd h (p.trail.not_mem blank)

/-! ## Reading a value -/

theorem dropQuote_of_plain (h : '"' ∉ s) : dropQuote s = s :=
  if_neg fun first => h (List.mem_of_mem_head? first)

theorem isInside_of_plain (hq : '"' ∉ s) (hs : ';' ∉ s) : ∀ c ∈ s, isInside c = true := fun _ hc =>
  decide_eq_true ⟨fun h => hq (h ▸ hc), fun h => hs (h ▸ hc)⟩

theorem not_mem_dropWhile_blanks (h : c ∉ s) : c ∉ s.dropWhile Char.isBlank := fun hc =>
  h ((List.dropWhile_sublist _).mem hc)

theorem words_value (hq : '"' ∉ s) (hs : ';' ∉ s) : Text.words (value s).1 = Text.words s := by
  have hq' := not_mem_dropWhile_blanks hq
  have all := isInside_of_plain hq' (not_mem_dropWhile_blanks hs)
  rw [value, dropQuote_of_plain hq', List.takeWhile_eq_self_iff.mpr all, Text.words_dropWhile]

/-- A quote behind it does not change its words, even if it is read as an opening one. -/
theorem words_value_quote (hq : '"' ∉ s) (hs : ';' ∉ s) (b : Blanks) :
    Text.words (value (s ++ '"' :: b.val)).1 = Text.words s := by
  have hq' := not_mem_dropWhile_blanks hq
  have all := isInside_of_plain hq' (not_mem_dropWhile_blanks hs)
  have skipped : (s ++ '"' :: b.val).dropWhile Char.isBlank =
      s.dropWhile Char.isBlank ++ '"' :: b.val :=
    Text.dropWhile_append_stop s ((Text.ends_cons '"' _).stop rfl)
  rw [value, skipped, ← Text.words_dropWhile s]
  dsimp only
  cases hv : s.dropWhile Char.isBlank with
  | nil =>
    -- the quote opens a value of blanks
    refine (Text.words_of_blanks fun c hc => b.property c ?_).trans Text.words_nil.symm
    exact (List.takeWhile_sublist _).mem hc
  | cons c v =>
    rw [hv] at hq' all
    have other : (c :: v ++ '"' :: b.val).head? ≠ some '"' := fun h =>
      hq' (Option.some.inj h ▸ List.mem_cons_self)
    rw [dropQuote, if_neg other, Text.takeWhile_exact all ((Text.ends_cons '"' _).stop rfl)]

theorem value_quoted (b : Blanks) (hq : '"' ∉ s) (hs : ';' ∉ s) (t : List Char) :
    (value (b.val ++ '"' :: (s ++ '"' :: t))).1 = s := by
  have skipped : (b.val ++ '"' :: (s ++ '"' :: t)).dropWhile Char.isBlank =
      '"' :: (s ++ '"' :: t) :=
    Text.dropWhile_exact b.property ((Text.ends_cons '"' _).stop rfl)
  rw [value, skipped]
  exact Text.takeWhile_exact (isInside_of_plain hq hs) ((Text.ends_cons '"' t).stop rfl)

/-! ## Reading a part -/

theorem name_exact (gap front : Blanks) (name : Token) (r : List Char) :
    ((gap.val ++ (name.val ++ (front.val ++ '=' :: r))).dropWhile Char.isBlank).takeWhile
      isTokenChar = name.val := by
  obtain ⟨name, ne, chars⟩ := name
  have solid : ∀ c ∈ (name ++ (front.val ++ '=' :: r)).head?, Char.isBlank c = false := by
    cases name with
    | nil => exact absurd rfl ne
    | cons d name =>
      intro c hc
      have token := chars d List.mem_cons_self
      rw [← Option.some.inj hc]
      simp only [isTokenChar, Bool.and_eq_true, Bool.not_eq_true'] at token
      exact token.1
  have stop : ∀ c ∈ (front.val ++ '=' :: r).head?, isTokenChar c = false := by
    obtain ⟨front, blanks⟩ := front
    cases front with
    | nil => exact (Text.ends_cons '=' r).stop rfl
    | cons d front =>
      intro c hc
      have blank := blanks d List.mem_cons_self
      rw [← Option.some.inj hc]
      simp [isTokenChar, blank]
  rw [Text.dropWhile_exact gap.property solid, Text.takeWhile_exact chars stop]

theorem relationsOf_of_some (h : relText? s = some r) : relationsOf s = Text.words (value r).1 := by
  rw [relationsOf, h]

theorem relationsOf_of_none (h : relText? s = none) : relationsOf s = [] := by
  rw [relationsOf, h]

theorem relationsOf_other (gap front : Blanks) {name : Token} (other : name.val ≠ "rel".toList)
    (r : List Char) : relationsOf (gap.val ++ (name.val ++ (front.val ++ '=' :: r))) = [] := by
  refine relationsOf_of_none (Option.eq_none_iff_forall_ne_some.mpr fun u hu => other ?_)
  obtain ⟨gap', front', hg, hf, same⟩ := relText?_eq_some_iff.mp hu
  rw [← name_exact gap front name r, same]
  exact name_exact ⟨gap', hg⟩ ⟨front', hf⟩ relToken u

theorem relationsOf_rel {p : Param} (h : p.IsRel) (plain : ';' ∉ p.value.content) :
    relationsOf p.body = Text.words p.value.content := by
  have read : relText? p.body = some (p.back.val ++ (p.value.text ++ p.trail.val)) :=
    relText?_eq_some_iff.mpr ⟨p.gap.val, p.front.val, p.gap.property, p.front.property, by
      rw [Param.body, h]⟩
  rw [relationsOf_of_some read]
  cases hv : p.value with
  | token t =>
    have missing {c : Char} (token : isTokenChar c = false) (blank : Char.isBlank c = false) :
        c ∉ p.back.val ++ (t.val ++ p.trail.val) := by
      simp only [List.mem_append, not_or]
      exact ⟨p.back.not_mem blank, t.not_mem token, p.trail.not_mem blank⟩
    change Text.words (value (p.back.val ++ (t.val ++ p.trail.val))).1 = Text.words t.val
    rw [words_value (missing rfl rfl) (missing rfl rfl), Text.words_blanks_append p.back.property,
      Text.words_append_of_blanks _ p.trail.property]
  | quoted s hs =>
    rw [hv] at plain
    change Text.words (value (p.back.val ++ '"' :: (s ++ ['"'] ++ p.trail.val))).1 = Text.words s
    rw [List.append_assoc, List.singleton_append, value_quoted p.back hs plain]

/-- A quote behind a part does not change its relations. -/
theorem relationsOf_quote (hq : '"' ∉ s) (hs : ';' ∉ s) (b : Blanks) :
    relationsOf (s ++ '"' :: b.val) = relationsOf s := by
  have read := relText?_append s (Text.ends_cons '"' b.val) rfl (by decide) (by decide)
  cases hv : relText? s with
  | none => rw [relationsOf_of_none hv, relationsOf_of_none (read.trans (by rw [hv]; rfl))]
  | some v =>
    obtain ⟨gap, front, -, -, rfl⟩ := relText?_eq_some_iff.mp hv
    have inside {c : Char} (h : c ∉ gap ++ ("rel".toList ++ (front ++ '=' :: v))) : c ∉ v :=
      fun hc => h (by simp [hc])
    rw [relationsOf_of_some hv, relationsOf_of_some (read.trans (by rw [hv]; rfl)),
      words_value_quote (inside hq) (inside hs), words_value (inside hq) (inside hs)]

/-! ## Reading parameters -/

/-- The relations that are read of the parts of a quoted text. -/
def suggested (q : List Char) : List (List Char) :=
  (parts q).tail.flatMap relationsOf

/-- The relations that are read of a parameter. -/
def Param.relations (p : Param) : List (List Char) :=
  if p.IsRel then Text.words p.value.content else suggested p.value.content

theorem suggested_of_plain (h : ';' ∉ s) : suggested s = [] := by
  rw [suggested, parts_of_plain h]
  rfl

theorem suggested_append_cons (h : ';' ∉ s) (t : List Char) :
    suggested (s ++ ';' :: t) = (parts t).flatMap relationsOf := by
  rw [suggested, parts_append_semicolon, parts_of_plain h]
  rfl

theorem relationsOf_parts_quote (hq : '"' ∉ s) (b : Blanks) :
    (parts (s ++ '"' :: b.val)).flatMap relationsOf = (parts s).flatMap relationsOf := by
  have last {part : List Char} (hq : '"' ∉ part) (hs : ';' ∉ part) :
      (parts (part ++ '"' :: b.val)).flatMap relationsOf = (parts part).flatMap relationsOf := by
    have whole : ';' ∉ part ++ '"' :: b.val := by
      simp only [List.mem_append, List.mem_cons, not_or]
      exact ⟨hs, by decide, b.not_mem rfl⟩
    rw [parts_of_plain whole, parts_of_plain hs, List.flatMap_singleton, List.flatMap_singleton,
      relationsOf_quote hq hs b]
  rcases Text.exists_last_part ';' s with hs | ⟨front, part, rfl, hs⟩
  · exact last hq hs
  · have inside : '"' ∉ part := fun h => hq (by simp [h])
    rw [List.append_assoc, List.cons_append, parts_append_semicolon, parts_append_semicolon,
      List.flatMap_append, List.flatMap_append, last inside hs]

/-- The relations of the parts of quoted text are those that it suggests: the part in front of its
first semicolon starts with the name. -/
theorem relationsOf_body_quoted {p : Param} (other : ¬ p.IsRel) {front u : List Char}
    (plain : ';' ∉ front) (hq : '"' ∉ front ++ ';' :: u)
    (value : p.value = .quoted (front ++ ';' :: u) hq) :
    (parts p.body).flatMap relationsOf = suggested (front ++ ';' :: u) := by
  have first : ';' ∉ p.gap.val ++ (p.name.val ++
      (p.front.val ++ '=' :: (p.back.val ++ '"' :: front))) := by
    simp only [List.mem_append, List.mem_cons, not_or]
    exact ⟨p.gap.not_mem rfl, p.name.not_mem rfl, p.front.not_mem rfl, by decide,
      p.back.not_mem rfl, by decide, plain⟩
  have behind : '"' ∉ u := fun hc => hq (by simp [hc])
  have spelled : p.body =
      (p.gap.val ++ (p.name.val ++ (p.front.val ++ '=' :: (p.back.val ++ '"' :: front)))) ++
        ';' :: (u ++ '"' :: p.trail.val) := by
    simp only [Param.body, value, ParamValue.text, List.append_assoc, List.cons_append,
      List.nil_append]
  rw [spelled, parts_append_semicolon, parts_of_plain first, List.flatMap_append,
    relationsOf_parts_quote behind, List.flatMap_singleton, relationsOf_other p.gap p.front other,
    List.nil_append, suggested_append_cons plain]

theorem relationsOf_body {p : Param} (h : p.IsRel → ';' ∉ p.value.content) :
    (parts p.body).flatMap relationsOf = p.relations := by
  unfold Param.relations
  by_cases hs : ';' ∈ p.value.content
  · have other : ¬ p.IsRel := fun rel => h rel hs
    rw [if_neg other]
    obtain ⟨front, rest, same, plain, ends⟩ := Text.exists_first_part ';' p.value.content
    rw [same] at hs ⊢
    rcases ends.eq_nil_or with rfl | ⟨u, rfl⟩
    · exact absurd hs (by rwa [List.append_nil])
    · cases hv : p.value with
      | token t =>
        rw [hv] at same
        have inside : ';' ∈ (ParamValue.token t).content := same.symm ▸ hs
        exact absurd inside (t.not_mem rfl)
      | quoted s hq =>
        rw [hv] at same
        obtain rfl : s = front ++ ';' :: u := same
        exact relationsOf_body_quoted other plain hq hv
  · have whole : ';' ∉ p.body := fun hc => hs (p.mem_body hc rfl rfl (by decide))
    rw [parts_of_plain whole, List.flatMap_singleton]
    split_ifs with rel
    · exact relationsOf_rel rel hs
    · rw [suggested_of_plain hs]
      exact relationsOf_other p.gap p.front rel _

theorem ends_params (ps : List Param) : Text.Ends ';' (ps.flatMap Param.text) := by
  cases ps with
  | nil => exact Text.ends_nil ';'
  | cons p ps => exact Text.ends_cons ';' _

/-- The relations of parameters are those of each of them. -/
theorem relations_params {ps : List Param} (h : ∀ p ∈ ps, p.IsRel → ';' ∉ p.value.content) :
    (parts (ps.flatMap Param.text)).tail.flatMap relationsOf = ps.flatMap Param.relations := by
  induction ps with
  | nil => rfl
  | cons p ps ih =>
    have rest := ih fun q hq => h q (List.mem_cons_of_mem p hq)
    rw [List.flatMap_cons, Param.text, List.cons_append, parts_semicolon, List.tail_cons,
      parts_append _ (ends_params ps), List.flatMap_append,
      relationsOf_body (h p List.mem_cons_self), rest, List.flatMap_cons]

/-! ## Reading links -/

theorem read?_sent {l : Sent} (h : ∀ p ∈ l.params, ',' ∉ p.value.content) (hr : Text.Ends ',' r) :
    read? (l.text ++ r) = some (l.read, r) := by
  have plain : ',' ∉ l.params.flatMap Param.text := by
    intro hc
    obtain ⟨p, hp, hc⟩ := List.mem_flatMap.mp hc
    exact h p hp (p.mem_body ((List.mem_cons.mp hc).resolve_left (by decide)) rfl rfl (by decide))
  have read := read?_text (l.lead.not_mem rfl) l.closed l.trail.property (ends_params l.params)
    plain hr
  rw [Sent.text, Sent.read, ← read]
  simp only [List.append_assoc, List.cons_append]

theorem joined_cons (l : Sent) (ls : List Sent) : ∃ r, Text.Ends ',' r ∧
    Sent.joined (l :: ls) = l.text ++ r ∧ readAll r = readAll (Sent.joined ls) := by
  cases ls with
  | nil => exact ⟨[], Text.ends_nil ',', by simp [Sent.joined], rfl⟩
  | cons m ls =>
    refine ⟨',' :: Sent.joined (m :: ls), Text.ends_cons ',' _, ?_, readAll_cons (by decide) _⟩
    simp [Sent.joined, List.intercalate_cons_cons]

/-- **Links with commas between them are read back.** -/
theorem readAll_joined {ls : List Sent}
    (h : ∀ l ∈ ls, ∀ p ∈ l.params, ',' ∉ p.value.content) :
    readAll (Sent.joined ls) = ls.map Sent.read := by
  induction ls with
  | nil => rfl
  | cons l ls ih =>
    obtain ⟨r, ends, joined, same⟩ := joined_cons l ls
    have rest := ih fun m hm => h m (List.mem_cons_of_mem l hm)
    rw [joined, readAll_of_some (read?_sent (h l List.mem_cons_self) ends), same, rest,
      List.map_cons]

end Link

end AcmeClient
