import AcmeClient.Link
import AcmeClient.Proofs.Text.Scanning
import AcmeClient.Proofs.Text.Words

/-!
# Reading links

* `Link.read?_text`, `Link.lengths_of_read?`: the first link of a text;
* `Link.readAll_of_some`, `Link.readAll_of_none`: the other links are those of the rest;
* `Link.length_target_le`: a target is not longer than the text;
* `Link.relationsOf`: the relations in a part of the parameters between two semicolons;
* `Link.parts`: the parts of a text between semicolons;
* **`Link.relations_eq`**: the relations of a link are those of the parts behind its semicolons;
* `Link.length_le_of_mem_relations`: a relation is not longer than the parameters.
-/

namespace AcmeClient

namespace Link

variable {l : Link} {front gap params target r s t : List Char} {c : Char}

/-! ## One link -/

/-- A link is read up to the comma behind its parameters. -/
theorem read?_text (hf : '<' ∉ front) (ht : '>' ∉ target) (hg : ∀ c ∈ gap, Char.isBlank c = true)
    (hp : Text.Ends ';' params) (hp' : ',' ∉ params) (hr : Text.Ends ',' r) :
    read? (front ++ '<' :: (target ++ '>' :: (gap ++ (params ++ r)))) =
      some (⟨target, params⟩, r) := by
  have opens : (front ++ '<' :: (target ++ '>' :: (gap ++ (params ++ r)))).dropWhile
      (fun c => decide (c ≠ '<')) = '<' :: (target ++ '>' :: (gap ++ (params ++ r))) :=
    Text.dropWhile_exact (fun c hc => decide_eq_true fun h => hf (h ▸ hc))
      ((Text.ends_cons '<' _).stop rfl)
  have inside : ∀ c ∈ target, decide (c ≠ '>') = true := fun c hc =>
    decide_eq_true fun h => ht (h ▸ hc)
  have closes := (Text.ends_cons '>' (gap ++ (params ++ r))).stop
    (p := fun c => decide (c ≠ '>')) rfl
  rw [read?, opens]
  dsimp only
  rw [Text.dropWhile_exact inside closes, Text.takeWhile_exact inside closes]
  dsimp only
  rcases hp.eq_nil_or with rfl | ⟨u, rfl⟩
  · have blanks : (gap ++ r).dropWhile Char.isBlank = r := Text.dropWhile_exact hg (hr.stop rfl)
    rw [List.nil_append, blanks, if_neg]
    rcases hr.eq_nil_or with rfl | ⟨v, rfl⟩ <;> simp
  · have blanks : (gap ++ (';' :: u ++ r)).dropWhile Char.isBlank = ';' :: u ++ r :=
      Text.dropWhile_exact hg ((Text.ends_cons ';' (u ++ r)).stop rfl)
    have plain : ∀ c ∈ ';' :: u, decide (c ≠ ',') = true := fun c hc =>
      decide_eq_true fun h => hp' (h ▸ hc)
    have semicolon : (';' :: u ++ r).head? = some ';' := rfl
    rw [blanks, if_pos semicolon, Text.takeWhile_exact plain (hr.stop rfl),
      Text.dropWhile_exact plain (hr.stop rfl)]

/-- Target, parameters and rest stand side by side in the text, behind a bracket. -/
theorem lengths_of_read? (h : read? s = some (l, r)) :
    l.target.length + l.params.length + r.length < s.length := by
  unfold read? at h
  split at h
  case h_1 => cases h
  case h_2 c u hu =>
    have outer := (List.dropWhile_sublist (fun c => decide (c ≠ '<')) (l := s)).length_le
    rw [hu, List.length_cons] at outer
    split at h
    case h_1 => cases h
    case h_2 d v hv =>
      have inner := congrArg List.length
        (List.takeWhile_append_dropWhile (p := fun c => decide (c ≠ '>')) (l := u))
      rw [hv, List.length_append, List.length_cons] at inner
      have blanks := (List.dropWhile_sublist Char.isBlank (l := v)).length_le
      have params := congrArg List.length (List.takeWhile_append_dropWhile
        (p := fun c => decide (c ≠ ',')) (l := v.dropWhile Char.isBlank))
      rw [List.length_append] at params
      dsimp only at h
      split_ifs at h with semicolon
      · obtain ⟨rfl, rfl⟩ := Prod.mk.inj (Option.some.inj h)
        dsimp only
        omega
      · obtain ⟨rfl, rfl⟩ := Prod.mk.inj (Option.some.inj h)
        dsimp only [List.length_nil]
        omega

theorem read?_cons (h : c ≠ '<') (s : List Char) : read? (c :: s) = read? s := by
  have skipped : (c :: s).dropWhile (fun c => decide (c ≠ '<')) =
      s.dropWhile (fun c => decide (c ≠ '<')) :=
    List.dropWhile_cons_of_pos (decide_eq_true h)
  rw [read?, skipped, read?]

/-! ## All links -/

theorem readWithin_of_some {n : ℕ} (h : read? s = some (l, r)) :
    readWithin (n + 1) s = l :: readWithin n r := by
  rw [readWithin, h]

theorem readWithin_of_none (h : read? s = none) (n : ℕ) : readWithin n s = [] := by
  cases n with
  | zero => rfl
  | succ n => rw [readWithin, h]

theorem readWithin_of_le {n : ℕ} (h : s.length ≤ n) : readWithin n s = readAll s := by
  suffices same : ∀ m n (s : List Char), s.length ≤ m → s.length ≤ n →
      readWithin m s = readWithin n s from same n s.length s h le_rfl
  intro m
  induction m with
  | zero =>
    intro n s hm hn
    obtain rfl := List.length_eq_zero_iff.mp (Nat.le_zero.mp hm)
    exact (readWithin_of_none rfl n).symm
  | succ m ih =>
    intro n s hm hn
    cases hs : read? s with
    | none => rw [readWithin_of_none hs, readWithin_of_none hs]
    | some p =>
      obtain ⟨l, r⟩ := p
      have less := lengths_of_read? hs
      obtain ⟨n, rfl⟩ := Nat.exists_eq_add_one_of_ne_zero (Nat.ne_zero_of_lt (less.trans_le hn))
      rw [readWithin_of_some hs, readWithin_of_some hs, ih n r (by omega) (by omega)]

theorem readAll_of_some (h : read? s = some (l, r)) : readAll s = l :: readAll r := by
  have less := lengths_of_read? h
  rw [← readWithin_of_le (Nat.le_succ s.length), readWithin_of_some h, readWithin_of_le (by omega)]

theorem readAll_of_none (h : read? s = none) : readAll s = [] :=
  readWithin_of_none h _

theorem readAll_cons (h : c ≠ '<') (s : List Char) : readAll (c :: s) = readAll s := by
  have same := read?_cons h s
  cases hs : read? s with
  | none => rw [readAll_of_none hs, readAll_of_none (same.trans hs)]
  | some p => rw [readAll_of_some hs, readAll_of_some (same.trans hs)]

/-- A target is not longer than the text. -/
theorem length_target_le (h : l ∈ readAll s) : l.target.length ≤ s.length := by
  suffices within : ∀ n (s : List Char), l ∈ readWithin n s → l.target.length ≤ s.length from
    within s.length s h
  intro n
  induction n with
  | zero => exact fun s hl => absurd hl List.not_mem_nil
  | succ n ih =>
    intro s hl
    cases hs : read? s with
    | none =>
      rw [readWithin_of_none hs] at hl
      cases hl
    | some p =>
      obtain ⟨m, r⟩ := p
      have less := lengths_of_read? hs
      rw [readWithin_of_some hs] at hl
      rcases List.mem_cons.mp hl with rfl | hl
      · omega
      · have := ih r hl
        omega

/-! ## Relations -/

/-- The text behind `rel =`, at the start. -/
def relText? (s : List Char) : Option (List Char) :=
  (Text.after? "rel".toList (s.dropWhile Char.isBlank)).bind fun s =>
    Text.after? ['='] (s.dropWhile Char.isBlank)

/-- The characters of a value. -/
def isInside (c : Char) : Bool :=
  c ≠ '"' ∧ c ≠ ';'

/-- A value and the rest of the text behind it. -/
def value (s : List Char) : List Char × List Char :=
  let s := dropQuote (s.dropWhile Char.isBlank)
  (s.takeWhile isInside, dropQuote (s.dropWhile isInside))

theorem relValue?_eq (s : List Char) : relValue? s = (relText? s).map value := by
  unfold relValue? relText?
  cases Text.after? "rel".toList (s.dropWhile Char.isBlank) with
  | none => rfl
  | some u =>
    rw [Option.bind_eq_bind, Option.bind_some, Option.bind_some]
    cases Text.after? ['='] (u.dropWhile Char.isBlank) <;> rfl

/-- The relations in a part of the parameters: words that are the value of `rel`. -/
def relationsOf (part : List Char) : List (List Char) :=
  match relText? part with
  | some s => Text.words (value s).1
  | none => []

theorem relText?_eq_some_iff : relText? s = some r ↔ ∃ gap front,
    (∀ c ∈ gap, Char.isBlank c = true) ∧ (∀ c ∈ front, Char.isBlank c = true) ∧
      s = gap ++ ("rel".toList ++ (front ++ '=' :: r)) := by
  constructor
  · intro h
    obtain ⟨u, hu, hr⟩ := Option.bind_eq_some_iff.mp h
    refine ⟨s.takeWhile Char.isBlank, u.takeWhile Char.isBlank, fun c => List.mem_takeWhile_imp,
      fun c => List.mem_takeWhile_imp, ?_⟩
    have behind : '=' :: r = u.dropWhile Char.isBlank := (Text.after?_eq_some_iff.mp hr).symm
    rw [behind, List.takeWhile_append_dropWhile, ← Text.after?_eq_some_iff.mp hu,
      List.takeWhile_append_dropWhile]
  · rintro ⟨gap, front, hg, hf, rfl⟩
    have outer : (gap ++ ("rel".toList ++ (front ++ '=' :: r))).dropWhile Char.isBlank =
        "rel".toList ++ (front ++ '=' :: r) :=
      Text.dropWhile_exact hg ((Text.ends_cons 'r' _).stop rfl)
    have inner : (front ++ '=' :: r).dropWhile Char.isBlank = ['='] ++ r :=
      Text.dropWhile_exact hf ((Text.ends_cons '=' r).stop rfl)
    rw [relText?, outer, Text.after?_append_self, Option.bind_some, inner, Text.after?_append_self]

/-- The text behind `rel =` goes on with what follows, unless that could be part of the sign. -/
theorem relText?_append (s : List Char) (h : Text.Ends c t) (blank : Char.isBlank c = false)
    (name : c ∉ "rel".toList) (sign : c ∉ ['=']) :
    relText? (s ++ t) = (relText? s).map (· ++ t) := by
  unfold relText?
  rw [Text.dropWhile_append_stop s (h.stop blank), Text.after?_append _ name h]
  cases Text.after? "rel".toList (s.dropWhile Char.isBlank) with
  | none => rfl
  | some u =>
    rw [Option.map_some, Option.bind_some, Option.bind_some,
      Text.dropWhile_append_stop u (h.stop blank), Text.after?_append _ sign h]

theorem dropQuote_append (s : List Char) (h : Text.Ends ';' t) :
    dropQuote (s ++ t) = dropQuote s ++ t := by
  cases s with
  | nil =>
    have other : t.head? ≠ some '"' := fun ht => absurd (h _ ht) (by decide)
    rw [List.nil_append, dropQuote, if_neg other]
    rfl
  | cons c s =>
    unfold dropQuote
    rw [List.cons_append, List.head?_cons, List.head?_cons]
    split_ifs <;> rfl

theorem value_append (s : List Char) (h : Text.Ends ';' t) :
    value (s ++ t) = ((value s).1, (value s).2 ++ t) := by
  have stop : ∀ c ∈ t.head?, isInside c = false := h.stop rfl
  unfold value
  dsimp only
  rw [Text.dropWhile_append_stop s (h.stop rfl), dropQuote_append _ h,
    Text.takeWhile_append_stop _ stop, Text.dropWhile_append_stop _ stop, dropQuote_append _ h]

theorem relValue?_append (s : List Char) (h : Text.Ends ';' t) :
    relValue? (s ++ t) = (relValue? s).map fun x => (x.1, x.2 ++ t) := by
  rw [relValue?_eq, relValue?_eq, relText?_append s h rfl (by decide) (by decide)]
  cases relText? s with
  | none => rfl
  | some v =>
    rw [Option.map_some, Option.map_some, value_append v h, Option.map_some, Option.map_some]

theorem relationsOf_eq (s : List Char) :
    relationsOf s = ((relValue? s).map fun x => Text.words x.1).getD [] := by
  rw [relationsOf, relValue?_eq]
  cases relText? s <;> rfl

theorem relationsOf_append (s : List Char) (h : Text.Ends ';' t) :
    relationsOf (s ++ t) = relationsOf s := by
  rw [relationsOf_eq, relationsOf_eq, relValue?_append s h]
  cases relValue? s <;> rfl

theorem suffix_dropQuote (s : List Char) : dropQuote s <:+ s := by
  unfold dropQuote
  split_ifs
  · exact List.drop_suffix 1 s
  · exact List.suffix_rfl

theorem suffix_of_relValue? (h : relValue? s = some (t, r)) : r <:+ s := by
  rw [relValue?_eq, Option.map_eq_some_iff] at h
  obtain ⟨v, hv, h⟩ := h
  obtain ⟨gap, front, -, -, rfl⟩ := relText?_eq_some_iff.mp hv
  obtain ⟨-, rfl⟩ := Prod.mk.inj h
  have behind : (value v).2 <:+ v :=
    (suffix_dropQuote _).trans ((List.dropWhile_suffix _).trans
      ((suffix_dropQuote _).trans (List.dropWhile_suffix _)))
  exact behind.trans ⟨gap ++ ("rel".toList ++ (front ++ ['='])), by simp only [List.append_assoc,
    List.cons_append, List.nil_append]⟩

/-! ## Parts -/

/-- The parts of a text between semicolons. -/
def parts (s : List Char) : List (List Char) :=
  Text.splitOn (· == ';') s

theorem parts_semicolon (s : List Char) : parts (';' :: s) = [] :: parts s :=
  Text.splitOn_cons_of_pos rfl s

theorem parts_append_semicolon (s t : List Char) : parts (s ++ ';' :: t) = parts s ++ parts t :=
  Text.splitOn_append_cons rfl s t

theorem parts_of_plain (h : ';' ∉ s) : parts s = [s] :=
  Text.splitOn_of_none fun _ hc same => h (eq_of_beq same ▸ hc)

/-- The parts of a text that goes on with a semicolon, if at all. -/
theorem parts_append (s : List Char) (ht : Text.Ends ';' t) :
    parts (s ++ t) = parts s ++ (parts t).tail := by
  rcases ht.eq_nil_or with rfl | ⟨u, rfl⟩
  · rw [List.append_nil]
    exact (List.append_nil _).symm
  · rw [parts_append_semicolon, parts_semicolon, List.tail_cons]

theorem tail_parts_cons (h : c ≠ ';') (s : List Char) : (parts (c :: s)).tail = (parts s).tail := by
  have other : ¬ (c == ';') = true := by simpa using h
  rw [parts, Text.splitOn_cons_of_neg (p := (· == ';')) other, parts]
  cases Text.splitOn (· == ';') s <;> rfl

/-- Where no value is read there are no relations in the first part. -/
theorem relationsOf_parts_of_none (h : relValue? s = none) :
    (parts s).flatMap relationsOf = (parts s).tail.flatMap relationsOf := by
  obtain ⟨part, rest, rfl, hpart, hrest⟩ := Text.exists_first_part ';' s
  have nothing : relationsOf part = [] := by
    rw [← relationsOf_append part hrest, relationsOf_eq, h]
    rfl
  rw [parts_append part hrest, parts_of_plain hpart, List.singleton_append, List.flatMap_cons,
    nothing, List.nil_append, List.tail_cons]

/-- Behind a value the relations are those of the next parts. -/
theorem relationsOf_parts_of_some {v : List Char} (h : relValue? s = some (v, r)) :
    (parts s).flatMap relationsOf = Text.words v ++ (parts r).tail.flatMap relationsOf := by
  obtain ⟨part, rest, rfl, hpart, hrest⟩ := Text.exists_first_part ';' s
  have words : relationsOf part = Text.words v := by
    rw [← relationsOf_append part hrest, relationsOf_eq, h]
    rfl
  rw [relValue?_append part hrest, Option.map_eq_some_iff] at h
  obtain ⟨⟨v', r'⟩, hv', same⟩ := h
  obtain ⟨-, rfl⟩ := Prod.mk.inj same
  have plain : ';' ∉ r' := fun hr => hpart ((suffix_of_relValue? hv').mem hr)
  dsimp only
  rw [parts_append part hrest, parts_of_plain hpart, parts_append r' hrest, parts_of_plain plain,
    List.singleton_append, List.singleton_append, List.flatMap_cons, words, List.tail_cons]

theorem words_relValuesWithin {n : ℕ} (h : s.length ≤ n) :
    (relValuesWithin n s).flatMap Text.words = (parts s).tail.flatMap relationsOf := by
  induction n generalizing s with
  | zero =>
    obtain rfl := List.length_eq_zero_iff.mp (Nat.le_zero.mp h)
    rfl
  | succ n ih =>
    cases s with
    | nil => rfl
    | cons c s =>
      have less : s.length ≤ n := Nat.le_of_succ_le_succ h
      by_cases hc : c = ';'
      · subst hc
        rw [relValuesWithin, if_pos rfl, parts_semicolon, List.tail_cons]
        cases hv : relValue? s with
        | none => rw [relationsOf_parts_of_none hv, ← ih less]
        | some x =>
          have shorter : x.2.length ≤ s.length := (suffix_of_relValue? hv).length_le
          rw [relationsOf_parts_of_some hv, ← ih (shorter.trans less), List.flatMap_cons]
      · rw [relValuesWithin, if_neg hc, ih less, tail_parts_cons hc]

/-- **The relations of a link** are those of the parts behind its semicolons. -/
theorem relations_eq (l : Link) : l.relations = (parts l.params).tail.flatMap relationsOf :=
  words_relValuesWithin le_rfl

theorem length_value_le (s : List Char) : (value s).1.length ≤ s.length :=
  calc
    (value s).1.length ≤ _ := (List.takeWhile_sublist _).length_le
    _ ≤ (s.dropWhile Char.isBlank).length := (suffix_dropQuote _).length_le
    _ ≤ s.length := (List.dropWhile_sublist _).length_le

/-- A relation is not longer than the parameters. -/
theorem length_le_of_mem_relations {w : List Char} (h : w ∈ l.relations) :
    w.length ≤ l.params.length := by
  rw [relations_eq] at h
  obtain ⟨part, hpart, h⟩ := List.mem_flatMap.mp h
  unfold relationsOf at h
  split at h
  case h_2 => cases h
  case h_1 v hv =>
    obtain ⟨gap, front, -, -, rfl⟩ := relText?_eq_some_iff.mp hv
    have inside := (Text.length_le_of_mem_words h).trans (length_value_le v)
    have outside := Text.length_le_of_mem_splitOn (List.mem_of_mem_tail hpart)
    simp only [List.length_append, List.length_cons] at outside
    omega

end Link

end AcmeClient
