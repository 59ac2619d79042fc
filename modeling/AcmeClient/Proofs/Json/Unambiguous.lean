import AcmeClient.Proofs.Json.RoundTrip

/-!
# JSON texts are unambiguous

A value without fractions is known from its text, however long its integers are and however deep it
is nested. The reader cannot tell this, as it has limits.

* **`Json.opening_of_chars?`**: the first character of a text tells the form of its value;
* `Json.tells_int`, `Json.tells_quote`, **`Json.tells_join`**: integers, strings and several items
  are told apart by their texts, whatever follows these;
* **`Json.Spells.tells`**, **`Json.write?_injective`**: so are values.
-/

namespace AcmeClient

namespace Json

/-! ## First characters -/

/-- What can be told from the first character of a text. -/
inductive Form where
  | null
  | bool (b : Bool)
  | text
  | list
  | object
  | number
deriving DecidableEq

/-- What a text is that starts with a character. -/
def Form.ofChar (c : Char) : Form :=
  if c = 'n' then null
  else if c = 't' then bool true
  else if c = 'f' then bool false
  else if c = '"' then text
  else if c = '[' then list
  else if c = '\x7b' then object
  else number

/-- What the text of a value is. -/
def Form.ofValue : Value → Form
  | .null => null
  | .bool b => bool b
  | .text _ => text
  | .list _ => list
  | .object _ => object
  | _ => number

section First

variable {v : Value} {t : List Char}

theorem toList_toString_eq_cons (n : Int) :
    ∃ c u, (toString n).toList = c :: u ∧ (c = '-' ∨ (Digit.ascii? c).isSome = true) := by
  obtain ⟨c, u, hd, hc⟩ := toDigits_eq_cons n.natAbs
  rw [toList_toString, hd]
  split_ifs
  · exact ⟨'-', _, rfl, .inl rfl⟩
  · exact ⟨c, u, rfl, .inr hc⟩

/-- A character that a text of some form can start with. -/
def Form.Opening (f : Form) (c : Char) : Prop :=
  ofChar c = f ∧ isGap c = false ∧ c ≠ ']' ∧ c ≠ '\x7d'

instance (f : Form) (c : Char) : Decidable (f.Opening c) :=
  inferInstanceAs (Decidable (_ ∧ _))

theorem Form.opening_digit {c : Char} (hc : (Digit.ascii? c).isSome = true) : number.Opening c :=
  Digit.of_ascii? (P := number.Opening) (by decide) hc

/-- **The first character of a text tells the form of its value.** -/
theorem opening_of_chars? (hv : v.Jsonlike) (ht : chars? v = some t) :
    ∃ c u, t = c :: u ∧ (Form.ofValue v).Opening c := by
  cases hv with
  | null =>
    cases ht
    exact ⟨'n', _, rfl, by decide⟩
  | bool b =>
    cases ht
    cases b
    · exact ⟨'f', _, rfl, by decide⟩
    · exact ⟨'t', _, rfl, by decide⟩
  | int n =>
    cases ht
    obtain ⟨c, u, hc, rfl | digit⟩ := toList_toString_eq_cons n
    · exact ⟨'-', u, hc, (by decide : Form.number.Opening '-')⟩
    · exact ⟨c, u, hc, Form.opening_digit digit⟩
  | text s =>
    cases ht
    exact ⟨'"', _, rfl, (by decide : Form.text.Opening '"')⟩
  | list xs _ =>
    obtain ⟨ts, -, rfl⟩ := Option.map_eq_some_iff.mp ht
    exact ⟨'[', _, rfl, (by decide : Form.list.Opening '[')⟩
  | object ms _ _ =>
    obtain ⟨ts, -, rfl⟩ := Option.map_eq_some_iff.mp ht
    exact ⟨'\x7b', _, rfl, (by decide : Form.object.Opening '\x7b')⟩

end First

/-! ## Texts that tell things apart -/

/-- Where the texts `t` and `u` with what follows them are equal, `P` holds, and what follows them
is equal. -/
def Tells (P : Prop) (t u : List Char) : Prop :=
  ∀ r r', Ends r → Ends r' → t ++ r = u ++ r' → P ∧ r = r'

section Tells

variable {t r r' : List Char}

theorem tells_refl {P : Prop} (h : P) (t : List Char) : Tells P t t :=
  fun _ _ _ _ same => ⟨h, List.append_cancel_left same⟩

theorem tells_toDigits (m n : Nat) : Tells (m = n) (Nat.toDigits 10 m) (Nat.toDigits 10 n) := by
  intro r r' hr hr' same
  have split := digits_append (fun _ => Digit.isSome_of_mem_toDigits (n := m)) hr
  rw [same, digits_append (fun _ => Digit.isSome_of_mem_toDigits (n := n)) hr'] at split
  obtain ⟨number, rest⟩ := Prod.mk.inj split
  have value := congrArg Digit.natOf number
  rw [Digit.natOf_toDigits, Digit.natOf_toDigits] at value
  exact ⟨value.symm, rest.symm⟩

theorem minus_ne_toDigits (n : Nat) : '-' :: t ++ r ≠ Nat.toDigits 10 n ++ r' := by
  obtain ⟨c, u, hd, hc⟩ := toDigits_eq_cons n
  rw [hd]
  intro h
  obtain rfl := (List.cons.inj h).1
  exact absurd hc (by decide)

theorem tells_int (m n : Int) : Tells (m = n) (toString m).toList (toString n).toList := by
  intro r r' hr hr' same
  rw [toList_toString, toList_toString] at same
  split_ifs at same with hm hn hn
  · obtain ⟨number, rest⟩ := tells_toDigits _ _ r r' hr hr' (List.cons.inj same).2
    exact ⟨by omega, rest⟩
  · exact absurd same (minus_ne_toDigits _)
  · exact absurd same.symm (minus_ne_toDigits _)
  · obtain ⟨number, rest⟩ := tells_toDigits _ _ r r' hr hr' same
    exact ⟨by omega, rest⟩

/-- A string ends with its closing quote, whatever follows it. -/
theorem tells_quote {s s' : String} (same : quote s ++ r = quote s' ++ r') : s = s' ∧ r = r' := by
  have read (s : String) (r : List Char) :
      readString ((quote s ++ r).drop 1) = some (s.toList, r) := by
    rw [quote, List.cons_append, List.cons_append, List.append_assoc, List.singleton_append,
      List.drop_one, List.tail_cons, readString_quote]
  have both := read s r
  rw [same, read s' r'] at both
  obtain ⟨chars, rest⟩ := Prod.mk.inj (Option.some.inj both)
  exact ⟨String.toList_inj.mp chars.symm, rest.symm⟩

/-- **Several items are told apart if each of them is.** -/
theorem tells_join {α : Type} {R : List Char → α → Prop} {xs ys : List α} {ts us : List (List Char)}
    {z : Char} (closes : z = ']' ∨ z = '\x7d') (hx : List.Forall₂ R ts xs)
    (hy : List.Forall₂ R us ys) (opens : ∀ t x, R t x → Opens t)
    (tells : ∀ x ∈ xs, ∀ y t u, R t x → R u y → Tells (x = y) t u)
    (same : join ts ++ z :: r = join us ++ z :: r') : xs = ys ∧ r = r' := by
  have ends : ∀ s, Ends (z :: s) := fun s => ends_cons (.inr closes)
  have closed : ∀ {t : List Char} {ts : List (List Char)} {s s' : List Char}, Opens t →
      z :: s ≠ join (t :: ts) ++ z :: s' := by
    intro t ts s s' ht
    obtain ⟨c, u, hc, -, h1, h2⟩ := @opens_join _ ts ht
    rw [hc]
    intro h
    rcases closes with rfl | rfl
    · exact h1 (List.cons.inj h).1.symm
    · exact h2 (List.cons.inj h).1.symm
  have comma : ∀ {s s' : List Char}, z :: s ≠ ',' :: s' := by
    rintro s s' h
    rcases closes with rfl | rfl <;> cases h
  induction hx generalizing ys us with
  | nil =>
    cases hy with
    | nil => exact ⟨rfl, (List.cons.inj same).2⟩
    | cons hu _ => exact absurd same (closed (opens _ _ hu))
  | @cons t x ts xs ht hts ih =>
    cases hy with
    | nil => exact absurd same.symm (closed (opens _ _ ht))
    | @cons u y us ys hu hus =>
    have first := tells x List.mem_cons_self y t u ht hu
    cases hts with
    | nil =>
      cases hus with
      | nil =>
        obtain ⟨rfl, rest⟩ := first _ _ (ends r) (ends r') same
        exact ⟨rfl, (List.cons.inj rest).2⟩
      | cons _ _ =>
        rw [join, join, List.append_assoc] at same
        exact absurd (first _ _ (ends r) (ends_cons (.inl rfl)) same).2 comma
    | cons hb hbs =>
      cases hus with
      | nil =>
        rw [join, join, List.append_assoc] at same
        exact absurd (first _ _ (ends_cons (.inl rfl)) (ends r') same).2.symm comma
      | cons hd hds =>
        rw [join, join, List.append_assoc, List.append_assoc] at same
        obtain ⟨rfl, rest⟩ := first _ _ (ends_cons (.inl rfl)) (ends_cons (.inl rfl)) same
        have later := (List.cons.inj (List.cons.inj rest).2).2
        obtain ⟨items, rest⟩ := ih (.cons hd hds)
          (fun z hz => tells z (List.mem_cons_of_mem x hz)) later
        exact ⟨by rw [items], rest⟩

end Tells

/-! ## Values -/

/-- The text of a value without fractions. -/
def Spells (t : List Char) (v : Value) : Prop :=
  v.Jsonlike ∧ chars? v = some t

variable {v w : Value} {t u : List Char}

theorem Spells.opens (h : Spells t v) : Opens t := by
  obtain ⟨c, u, rfl, -, opens⟩ := opening_of_chars? h.1 h.2
  exact ⟨c, u, rfl, opens⟩

/-- Where texts are equal, so are the forms of their values. -/
theorem Spells.form_eq {r r' : List Char} (ht : Spells t v) (hu : Spells u w)
    (same : t ++ r = u ++ r') : Form.ofValue v = Form.ofValue w := by
  obtain ⟨c, s, rfl, hc, -⟩ := opening_of_chars? ht.1 ht.2
  obtain ⟨d, s', rfl, hd, -⟩ := opening_of_chars? hu.1 hu.2
  rw [← hc, ← hd, (List.cons.inj same).1]

/-- **A value without fractions has a text.** -/
theorem exists_spells (h : v.Jsonlike) : ∃ t, chars? v = some t ∧ Spells t v := by
  have text : ∃ t, chars? v = some t := by
    induction h with
    | list xs _ ih =>
      obtain ⟨ts, hts, -⟩ := itemChars?_forall₂ (R := fun _ _ => True)
        fun x hx => (ih x hx).imp fun _ ht => ⟨ht, trivial⟩
      exact ⟨_, by rw [chars?, hts]; rfl⟩
    | object ms _ _ ih =>
      obtain ⟨ts, hts, -⟩ := memberChars?_forall₂ (R := fun _ _ => True)
        fun p hp => (ih p hp).imp fun _ ht => ⟨ht, trivial⟩
      exact ⟨_, by rw [chars?, hts]; rfl⟩
    | _ => exact ⟨_, rfl⟩
  exact text.imp fun _ ht => ⟨ht, h, ht⟩

theorem chars?_list {xs : List Value} (h : ∀ x ∈ xs, x.Jsonlike) :
    ∃ ts, chars? (.list xs) = some ('[' :: join ts ++ [']']) ∧ List.Forall₂ Spells ts xs := by
  obtain ⟨ts, hts, spells⟩ := itemChars?_forall₂ fun x hx => exists_spells (h x hx)
  exact ⟨ts, by rw [chars?, hts]; rfl, spells⟩

/-- The text of a member. -/
def SpellsMember (t : List Char) (p : String × Value) : Prop :=
  ∃ u, t = quote p.1 ++ ':' :: ' ' :: u ∧ Spells u p.2

theorem chars?_object {ms : Members} (h : ∀ p ∈ ms, p.2.Jsonlike) :
    ∃ ts, chars? (.object ms) = some ('\x7b' :: join ts ++ ['\x7d']) ∧
      List.Forall₂ SpellsMember ts ms := by
  obtain ⟨ts, hts, spells⟩ := memberChars?_forall₂ fun p hp => exists_spells (h p hp)
  exact ⟨ts, by rw [chars?, hts]; rfl, spells⟩

theorem SpellsMember.opens {p : String × Value} (h : SpellsMember t p) : Opens t := by
  obtain ⟨u, rfl, -⟩ := h
  exact ⟨'"', _, rfl, by decide, by decide, by decide⟩

/-- Members are told apart if their values are. -/
theorem SpellsMember.tells {p q : String × Value}
    (h : ∀ w t u, Spells t p.2 → Spells u w → Tells (p.2 = w) t u) (ht : SpellsMember t p)
    (hu : SpellsMember u q) : Tells (p = q) t u := by
  obtain ⟨t, rfl, ht⟩ := ht
  obtain ⟨u, rfl, hu⟩ := hu
  intro r r' hr hr' same
  rw [List.append_assoc, List.append_assoc] at same
  obtain ⟨name, rest⟩ := tells_quote same
  obtain ⟨value, rest⟩ := h q.2 t u ht hu r r' hr hr' (List.cons.inj (List.cons.inj rest).2).2
  exact ⟨Prod.ext name value, rest⟩

/-- **Values without fractions are told apart by their texts.** -/
theorem Spells.tells (ht : Spells t v) (hu : Spells u w) : Tells (v = w) t u := by
  intro r r' hr hr' same
  -- the first characters are the same, so that the values are of one form
  have form := ht.form_eq hu same
  obtain ⟨hv, text⟩ := ht
  obtain ⟨hw, text'⟩ := hu
  induction hv generalizing w t u r r' with
  | null =>
    cases hw <;> cases form
    cases text
    cases text'
    exact tells_refl rfl _ r r' hr hr' same
  | bool b =>
    cases hw <;> cases form
    cases text
    cases text'
    exact tells_refl rfl _ r r' hr hr' same
  | int m =>
    cases hw <;> cases form
    cases text
    cases text'
    obtain ⟨number, rest⟩ := tells_int _ _ r r' hr hr' same
    exact ⟨congrArg Value.int number, rest⟩
  | text s =>
    cases hw <;> cases form
    cases text
    cases text'
    obtain ⟨chars, rest⟩ := tells_quote same
    exact ⟨congrArg Value.text chars, rest⟩
  | list xs hx ih =>
    cases hw <;> cases form
    rename_i ys hy
    obtain ⟨ts, hts, first⟩ := chars?_list hx
    obtain ⟨us, hus, second⟩ := chars?_list hy
    cases hts.symm.trans text
    cases hus.symm.trans text'
    rw [List.append_assoc, List.append_assoc] at same
    obtain ⟨items, rest⟩ := tells_join (.inl rfl) first second (fun _ _ => Spells.opens)
      (fun x hx y t u ht hu r r' hr hr' same =>
        ih x hx r r' hr hr' same (ht.form_eq hu same) ht.2 hu.1 hu.2) (List.cons.inj same).2
    exact ⟨congrArg Value.list items, rest⟩
  | object ms names hm ih =>
    cases hw <;> cases form
    rename_i ns names' hn
    obtain ⟨ts, hts, first⟩ := chars?_object hm
    obtain ⟨us, hus, second⟩ := chars?_object hn
    cases hts.symm.trans text
    cases hus.symm.trans text'
    rw [List.append_assoc, List.append_assoc] at same
    obtain ⟨members, rest⟩ := tells_join (.inr rfl) first second (fun _ _ => SpellsMember.opens)
      (fun p hp q t u ht hu => ht.tells (fun w t u ht hu r r' hr hr' same =>
        ih p hp r r' hr hr' same (ht.form_eq hu same) ht.2 hu.1 hu.2) hu) (List.cons.inj same).2
    exact ⟨congrArg Value.object members, rest⟩

/-- **Values without fractions that have the same text are the same.** -/
theorem write?_injective (hv : v.Jsonlike) (hw : w.Jsonlike) (same : write? v = write? w) :
    v = w := by
  obtain ⟨t, ht, first⟩ := exists_spells hv
  obtain ⟨u, hu, second⟩ := exists_spells hw
  rw [write?, write?, ht, hu] at same
  have texts : t = u := String.ofList_injective (Option.some.inj same)
  exact (first.tells second [] [] ends_nil ends_nil (by rw [texts])).1

end Json

end AcmeClient
