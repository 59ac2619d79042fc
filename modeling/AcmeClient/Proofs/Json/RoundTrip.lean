import AcmeClient.Proofs.Json.Numbers
import AcmeClient.Proofs.Json.Strings
import AcmeClient.Proofs.Members

/-!
# Reading back JSON

What is written is read back, for values without fractions. The reader has enough fuel since every
step of it takes up a character of the text.

* `Json.Legible`: the values that are read back, by the depth to which they are nested;
* `Json.Reads`: a text is read as a value, whatever follows it;
* `Json.readItems_join`, `Json.readMembers_join`: lists and objects, from their parts;
* **`Json.read_write?`**: the text of a value is read as this value;
* **`Json.read_long`**, **`Json.read_deep`**: the text of an integer with too many digits is
  refused, and that of lists nested too deeply.
-/

namespace AcmeClient

namespace Json

/-- The values that are read back, nested at most `n` deep. -/
inductive Legible : Nat → Value → Prop
  | null {n : Nat} : Legible n .null
  | bool {n : Nat} (b : Bool) : Legible n (.bool b)
  | int {n : Nat} (k : Int) (h : (Nat.toDigits 10 k.natAbs).length ≤ digitLimit) : Legible n (.int k)
  | text {n : Nat} (s : String) : Legible n (.text s)
  | list {n : Nat} {xs : List Value} (h : ∀ x ∈ xs, Legible n x) : Legible (n + 1) (.list xs)
  | object {n : Nat} {ms : Members} (names : (ms.map Prod.fst).Nodup)
      (h : ∀ p ∈ ms, Legible n p.2) : Legible (n + 1) (.object ms)

/-- The characters that a value starts with. -/
def Opens (t : List Char) : Prop :=
  ∃ c u, t = c :: u ∧ isGap c = false ∧ c ≠ ']' ∧ c ≠ '\x7d'

/-- The text `t` is read as `v`, whatever follows it, where lists and objects may be nested `n`
deep. -/
def Reads (n : Nat) (t : List Char) (v : Value) : Prop :=
  Opens t ∧ ∀ depth fuel r, depth + n ≤ depthLimit → t.length ≤ fuel → Ends r →
    readValue fuel depth (t ++ r) = .ok (v, r)

section Reads

variable {n : Nat} {r t : List Char} {v : Value}

theorem skipGap_of_opens (h : Opens t) : skipGap (t ++ r) = t ++ r := by
  obtain ⟨c, u, rfl, hc, -⟩ := h
  rw [skipGap, List.cons_append, List.dropWhile_cons_of_neg (by simp [hc])]

theorem skipGap_blank (h : Opens t) : skipGap (' ' :: (t ++ r)) = t ++ r := by
  change skipGap (t ++ r) = t ++ r
  exact skipGap_of_opens h

theorem skipGap_of_ends (h : Ends r) : skipGap r = r := by
  cases r with
  | nil => rfl
  | cons c r => rcases h c rfl with rfl | rfl | rfl <;> rfl

/-- The characters that names for values and numbers start with, and others that are no signs. -/
def startsScalar (c : Char) : Bool :=
  !isGap c && c != '"' && c != '[' && c != ']' && c != '\x7b' && c != '\x7d'

theorem startsScalar_of_digit {c : Char} (hc : (Digit.ascii? c).isSome = true) :
    startsScalar c = true :=
  Digit.of_ascii? (P := fun c => startsScalar c = true) (by decide) hc

theorem readValue_of_scalar {c : Char} {u : List Char} (hc : startsScalar c = true)
    (fuel depth : Nat) : readValue (fuel + 1) depth (c :: u) = readScalar (c :: u) := by
  simp only [startsScalar, Bool.and_eq_true, bne_iff_ne, Bool.not_eq_true'] at hc
  obtain ⟨⟨⟨⟨⟨-, quote⟩, open1⟩, -⟩, open2⟩, -⟩ := hc
  rw [readValue]
  · exact fun _ h => quote (List.cons.inj h).1
  · exact fun _ h => open1 (List.cons.inj h).1
  · exact fun _ h => open2 (List.cons.inj h).1

theorem reads_of_scalar {c : Char} {u : List Char} (hc : startsScalar c = true)
    (h : ∀ r, Ends r → readScalar (c :: u ++ r) = .ok (v, r)) : Reads n (c :: u) v := by
  have starts := hc
  simp only [startsScalar, Bool.and_eq_true, bne_iff_ne, Bool.not_eq_true'] at starts
  obtain ⟨⟨⟨⟨⟨gap, -⟩, -⟩, close1⟩, -⟩, close2⟩ := starts
  refine ⟨⟨c, u, rfl, gap, close1, close2⟩, fun depth fuel r _ hf hr => ?_⟩
  obtain ⟨fuel, rfl⟩ : ∃ f, fuel = f + 1 := by
    refine ⟨fuel - 1, ?_⟩
    rw [List.length_cons] at hf
    omega
  rw [List.cons_append, readValue_of_scalar hc, ← List.cons_append, h r hr]

theorem reads_null : Reads n "null".toList .null :=
  reads_of_scalar rfl fun _ _ => rfl

theorem reads_bool (b : Bool) :
    Reads n (if b then "true".toList else "false".toList) (.bool b) := by
  cases b with
  | true => exact reads_of_scalar rfl fun _ _ => rfl
  | false => exact reads_of_scalar rfl fun _ _ => rfl

theorem reads_int {k : Int} (hk : (Nat.toDigits 10 k.natAbs).length ≤ digitLimit) :
    Reads n (toString k).toList (.int k) := by
  obtain ⟨c, u, ht, hc⟩ : ∃ c u, (toString k).toList = c :: u ∧ startsScalar c = true := by
    obtain ⟨c, u, hd, hc⟩ := toDigits_eq_cons k.natAbs
    rw [toList_toString, hd]
    split_ifs
    · exact ⟨'-', _, rfl, rfl⟩
    · exact ⟨c, u, rfl, startsScalar_of_digit hc⟩
  have read := fun r (hr : Ends r) => readScalar_int hk hr
  rw [ht] at read ⊢
  exact reads_of_scalar hc read

theorem reads_text (s : String) : Reads n (quote s) (.text s) := by
  refine ⟨⟨'"', _, rfl, by decide, by decide, by decide⟩, fun depth fuel r _ hf hr => ?_⟩
  obtain ⟨fuel, rfl⟩ : ∃ f, fuel = f + 1 := by
    refine ⟨fuel - 1, ?_⟩
    rw [quote, List.cons_append, List.length_cons] at hf
    omega
  rw [quote, List.cons_append, List.cons_append, List.append_assoc, List.singleton_append, readValue,
    readString_quote]
  dsimp only
  rw [String.ofList_toList]

/-! ## Lists and objects -/

theorem opens_join {ts : List (List Char)} (h : Opens t) : Opens (join (t :: ts)) := by
  obtain ⟨c, u, rfl, hc⟩ := h
  cases ts with
  | nil => exact ⟨c, u, rfl, hc⟩
  | cons t' ts => exact ⟨c, _, rfl, hc⟩

/-- The items of a list, with the closing bracket. -/
theorem readItems_join {xs : List Value} {ts : List (List Char)} {depth fuel : Nat}
    (h : List.Forall₂ (Reads n) ts xs) (ne : ts ≠ []) (hd : depth + n ≤ depthLimit)
    (hf : (join ts).length < fuel) :
    readItems fuel depth (join ts ++ ']' :: r) = .ok (xs, r) := by
  induction h generalizing fuel with
  | nil => exact absurd rfl ne
  | @cons t x ts xs ht hts ih =>
    obtain ⟨fuel, rfl⟩ : ∃ f, fuel = f + 1 := ⟨fuel - 1, by omega⟩
    cases hts with
    | nil =>
      rw [join] at hf ⊢
      rw [readItems, ht.2 depth fuel _ hd (by omega) (ends_cons (by decide))]
      rfl
    | @cons t' x' ts xs ht' hts =>
      rw [join, List.length_append, List.length_cons, List.length_cons] at hf
      rw [join, List.append_assoc, List.cons_append, List.cons_append, readItems,
        ht.2 depth fuel _ hd (by omega) (ends_cons (by decide))]
      change (readItems fuel depth (skipGap (' ' :: (join (t' :: ts) ++ ']' :: r))) >>= fun p =>
        Except.ok (x :: p.1, p.2)) = _
      rw [skipGap_blank (opens_join ht'.1), ih (by simp) (by omega)]
      rfl

theorem reads_list {xs : List Value} {ts : List (List Char)} (h : List.Forall₂ (Reads n) ts xs) :
    Reads (n + 1) ('[' :: join ts ++ [']']) (.list xs) := by
  refine ⟨⟨'[', _, rfl, by decide, by decide, by decide⟩, fun depth fuel r hd hf hr => ?_⟩
  rw [List.length_append, List.length_cons, List.length_singleton] at hf
  obtain ⟨fuel, rfl⟩ : ∃ f, fuel = f + 1 := ⟨fuel - 1, by omega⟩
  rw [List.cons_append, List.cons_append, List.append_assoc, List.singleton_append, readValue,
    if_neg (by omega)]
  cases h with
  | nil => rfl
  | @cons t x ts xs ht hts =>
    have opens : Opens (join (t :: ts)) := opens_join ht.1
    have items : readItems fuel (depth + 1) (join (t :: ts) ++ ']' :: r) = .ok (x :: xs, r) :=
      readItems_join (.cons ht hts) (by simp) (by omega) (by omega)
    have first := skipGap_of_opens (r := ']' :: r) opens
    obtain ⟨c, u, hc, -, h1, -⟩ := opens
    rw [hc, List.cons_append] at first items
    rw [hc, List.cons_append, first]
    split
    · exact absurd (List.cons.inj ‹_›).1 h1
    · rw [items]
      rfl

/-- The text of a member. -/
def ReadsMember (n : Nat) (t : List Char) (p : String × Value) : Prop :=
  ∃ u, t = quote p.1 ++ ':' :: ' ' :: u ∧ Reads n u p.2

theorem ReadsMember.opens {p : String × Value} (h : ReadsMember n t p) : Opens t := by
  obtain ⟨u, rfl, -⟩ := h
  exact ⟨'"', _, rfl, by decide, by decide, by decide⟩

theorem readMembers_member {p : String × Value} {ms : Members} {depth fuel : Nat}
    (h : ReadsMember n t p) (hd : depth + n ≤ depthLimit) (hf : t.length ≤ fuel) :
    Ends r → readMembers (fuel + 1) depth ms (t ++ r) =
      match r with
      | '\x7d' :: r => .ok (ms.set p.1 p.2, r)
      | ',' :: r => readMembers fuel depth (ms.set p.1 p.2) (skipGap r)
      | _ => .error .malformed := by
  intro hr
  obtain ⟨u, rfl, hu⟩ := h
  rw [List.length_append, List.length_cons, List.length_cons] at hf
  rw [quote, List.cons_append, List.append_assoc, List.cons_append, List.append_assoc,
    List.singleton_append, List.cons_append, List.cons_append, readMembers, readString_quote]
  dsimp only
  change (readValue fuel depth (skipGap (' ' :: (u ++ r))) >>= fun x => _) = _
  rw [skipGap_blank hu.1, hu.2 depth fuel r hd (by omega) hr, String.ofList_toList]
  dsimp only [bind, Except.bind]
  have gap := skipGap_of_ends hr
  generalize skipGap r = r' at gap ⊢
  subst gap
  rfl

/-- The members of an object, added to those before, with the closing brace. -/
theorem readMembers_join {ms acc : Members} {ts : List (List Char)} {depth fuel : Nat}
    (h : List.Forall₂ (ReadsMember n) ts ms) (ne : ts ≠ [])
    (names : ((acc ++ ms).map Prod.fst).Nodup) (hd : depth + n ≤ depthLimit)
    (hf : (join ts).length < fuel) :
    readMembers fuel depth acc (join ts ++ '\x7d' :: r) = .ok (acc ++ ms, r) := by
  induction h generalizing fuel acc with
  | nil => exact absurd rfl ne
  | @cons t p ts ms ht hts ih =>
    obtain ⟨fuel, rfl⟩ : ∃ f, fuel = f + 1 := ⟨fuel - 1, by omega⟩
    have new : p.1 ∉ acc.map Prod.fst := by
      rw [List.map_append, List.map_cons] at names
      exact fun hm => (List.nodup_append.mp names).2.2 _ hm _ List.mem_cons_self rfl
    cases hts with
    | nil =>
      rw [join] at hf ⊢
      rw [readMembers_member ht hd (by omega) (ends_cons (by decide)), Members.set_of_notMem new]
      rfl
    | @cons t' p' ts ms ht' hts =>
      rw [join, List.length_append, List.length_cons, List.length_cons] at hf
      rw [join, List.append_assoc, List.cons_append, List.cons_append,
        readMembers_member ht hd (by omega) (ends_cons (by decide)), Members.set_of_notMem new]
      change readMembers fuel depth (acc ++ [p]) (skipGap (' ' :: (join (t' :: ts) ++ '\x7d' :: r))) = _
      rw [skipGap_blank (opens_join ht'.opens), ih (by simp) _ (by omega), List.append_assoc]
      · rfl
      · rw [List.append_assoc]
        exact names

theorem reads_object {ms : Members} {ts : List (List Char)} (h : List.Forall₂ (ReadsMember n) ts ms)
    (names : (ms.map Prod.fst).Nodup) : Reads (n + 1) ('\x7b' :: join ts ++ ['\x7d']) (.object ms) := by
  refine ⟨⟨'\x7b', _, rfl, by decide, by decide, by decide⟩, fun depth fuel r hd hf hr => ?_⟩
  rw [List.length_append, List.length_cons, List.length_singleton] at hf
  obtain ⟨fuel, rfl⟩ : ∃ f, fuel = f + 1 := ⟨fuel - 1, by omega⟩
  rw [List.cons_append, List.cons_append, List.append_assoc, List.singleton_append, readValue,
    if_neg (by omega)]
  cases h with
  | nil => rfl
  | @cons t p ts ms ht hts =>
    have opens : Opens (join (t :: ts)) := opens_join ht.opens
    have members : readMembers fuel (depth + 1) [] (join (t :: ts) ++ '\x7d' :: r) = .ok (p :: ms, r) :=
      readMembers_join (.cons ht hts) (by simp) names (by omega) (by omega)
    have first := skipGap_of_opens (r := '\x7d' :: r) opens
    obtain ⟨c, u, hc, -, -, h1⟩ := opens
    rw [hc, List.cons_append] at first members
    rw [hc, List.cons_append, first]
    split
    · exact absurd (List.cons.inj ‹_›).1 h1
    · rw [members]
      rfl

/-! ## Values -/

theorem itemChars?_forall₂ {R : List Char → Value → Prop} {xs : List Value}
    (h : ∀ x ∈ xs, ∃ t, chars? x = some t ∧ R t x) :
    ∃ ts, itemChars? xs = some ts ∧ List.Forall₂ R ts xs := by
  induction xs with
  | nil => exact ⟨[], rfl, .nil⟩
  | cons x xs ih =>
    obtain ⟨t, ht, first⟩ := h x List.mem_cons_self
    obtain ⟨ts, hts, rest⟩ := ih fun y hy => h y (List.mem_cons_of_mem x hy)
    refine ⟨t :: ts, ?_, .cons first rest⟩
    rw [itemChars?, ht, hts]
    rfl

theorem memberChars?_forall₂ {R : List Char → Value → Prop} {ms : Members}
    (h : ∀ p ∈ ms, ∃ t, chars? p.2 = some t ∧ R t p.2) :
    ∃ ts, memberChars? ms = some ts ∧
      List.Forall₂ (fun t p => ∃ u, t = quote p.1 ++ ':' :: ' ' :: u ∧ R u p.2) ts ms := by
  induction ms with
  | nil => exact ⟨[], rfl, .nil⟩
  | cons p ms ih =>
    obtain ⟨t, ht, first⟩ := h p List.mem_cons_self
    obtain ⟨ts, hts, rest⟩ := ih fun q hq => h q (List.mem_cons_of_mem p hq)
    refine ⟨_ :: ts, ?_, .cons ⟨t, rfl, first⟩ rest⟩
    rw [memberChars?, ht, hts]
    rfl

/-- **A value has a text, which is read as this value, whatever follows it.** -/
theorem chars?_reads (h : Legible n v) : ∃ t, chars? v = some t ∧ Reads n t v := by
  induction h with
  | null => exact ⟨_, rfl, reads_null⟩
  | bool b => exact ⟨_, rfl, reads_bool b⟩
  | int k hk => exact ⟨_, rfl, reads_int hk⟩
  | text s => exact ⟨_, rfl, reads_text s⟩
  | list _ ih =>
    obtain ⟨ts, hts, reads⟩ := itemChars?_forall₂ ih
    exact ⟨_, by rw [chars?, hts]; rfl, reads_list reads⟩
  | object names _ ih =>
    obtain ⟨ts, hts, reads⟩ := memberChars?_forall₂ ih
    exact ⟨_, by rw [chars?, hts]; rfl, reads_object reads names⟩

/-- **The text of a value is read as this value.** -/
theorem read_write? {s : String} (h : Legible n v) (hn : n ≤ depthLimit) (hs : write? v = some s) :
    read s = .ok v := by
  obtain ⟨t, ht, opens, reads⟩ := chars?_reads h
  rw [write?, ht] at hs
  obtain rfl := Option.some.inj hs
  have first := skipGap_of_opens (r := []) opens
  have value := reads 0 (2 * t.length + 2) [] (by omega) (by omega) ends_nil
  rw [List.append_nil] at first value
  rw [read, String.toList_ofList, readChars, first, value]
  rfl

end Reads

/-- **The text of an integer with too many digits is refused.** -/
theorem read_long {ds : List Char} (hds : ∀ c ∈ ds, (Digit.ascii? c).isSome = true)
    (h0 : ds.head? ≠ some '0') (long : digitLimit < ds.length) :
    read (String.ofList ds) = .error .longInteger := by
  have number := readNumber_long false hds h0 long
  obtain ⟨c, u, rfl⟩ := List.exists_cons_of_length_pos (Nat.zero_lt_of_lt long)
  have digit := hds c List.mem_cons_self
  have starts := startsScalar_of_digit digit
  have gap : skipGap (c :: u) = c :: u := by
    simp only [startsScalar, Bool.and_eq_true, Bool.not_eq_true'] at starts
    rw [skipGap, List.dropWhile_cons_of_neg (by simp [starts.1.1.1.1.1])]
  rw [read, String.toList_ofList, readChars, gap, readValue_of_scalar starts,
    readScalar_of_digit digit, number]
  rfl

/-- Opening brackets are refused as soon as there are more of them than may be nested. -/
theorem readValue_brackets {k depth fuel : Nat} (deep : depthLimit < depth + (k + 1))
    (enough : 2 * k < fuel) :
    readValue fuel depth (List.replicate (k + 1) '[') = .error .deep := by
  induction k generalizing depth fuel with
  | zero =>
    obtain ⟨fuel, rfl⟩ : ∃ m, fuel = m + 1 := Nat.exists_eq_add_of_le' enough
    exact if_pos (Nat.le_of_lt_succ deep)
  | succ k ih =>
    obtain ⟨fuel, rfl⟩ : ∃ m, fuel = m + 2 := Nat.exists_eq_add_of_le' (by omega)
    rw [List.replicate_succ, readValue]
    split_ifs with last
    · rfl
    · have inner := @ih (depth + 1) fuel (by omega) (by omega)
      have items : readItems (fuel + 1) (depth + 1) (List.replicate (k + 1) '[') =
          .error .deep := by
        rw [readItems, inner]
        rfl
      rw [List.replicate_succ] at items ⊢
      change (readItems (fuel + 1) (depth + 1) ('[' :: List.replicate k '[')).map _ = _
      rw [items]
      rfl

/-- **Lists in lists beyond the supported depth are refused.** -/
theorem read_deep {n : Nat} (h : depthLimit < n) :
    read (String.ofList (List.replicate n '[')) = .error .deep := by
  obtain ⟨k, rfl⟩ : ∃ k, n = k + 1 := Nat.exists_eq_add_of_le' (Nat.zero_lt_of_lt h)
  have gap : skipGap (List.replicate (k + 1) '[') = List.replicate (k + 1) '[' := rfl
  rw [read, String.toList_ofList, readChars, gap, List.length_replicate,
    readValue_brackets (by omega) (by omega)]
  rfl

theorem Legible.mono {m n : Nat} {v : Value} (h : Legible m v) (hmn : m ≤ n) : Legible n v := by
  induction h generalizing n with
  | null => exact .null
  | bool b => exact .bool b
  | int k hk => exact .int k hk
  | text s => exact .text s
  | list _ ih =>
    obtain ⟨n, rfl⟩ : ∃ k, n = k + 1 := ⟨n - 1, by omega⟩
    exact .list fun x hx => ih x hx (by omega)
  | object names _ ih =>
    obtain ⟨n, rfl⟩ : ∃ k, n = k + 1 := ⟨n - 1, by omega⟩
    exact .object names fun p hp => ih p hp (by omega)

end Json

end AcmeClient
