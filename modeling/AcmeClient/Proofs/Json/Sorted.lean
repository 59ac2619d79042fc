import Mathlib.Data.List.Nodup
import AcmeClient.Proofs.Json.Unambiguous

/-!
# Sorted members

Sorting the members of every object forgets their order, and nothing else.

* `Value.Same`: equal but for the order of members;
* `Json.find?_sortedMembers`, `Json.pairwise_sortedMembers`: the members afterwards, in their order;
* **`Json.sorted_eq_iff`**: what sorting forgets;
* **`Json.writeSorted?_eq_iff`**: so values have the same text exactly if they are equal but for the
  order of members.
-/

namespace AcmeClient

/-- Values that are equal but for the order of members, at every depth. -/
inductive Value.Same : Value → Value → Prop
  | null : Same null null
  | bool (b : Bool) : Same (bool b) (bool b)
  | int (n : Int) : Same (int n) (int n)
  | text (s : String) : Same (text s) (text s)
  | list {xs ys : List Value} (length : xs.length = ys.length)
      (items : ∀ (i : Nat) x y, xs[i]? = some x → ys[i]? = some y → Same x y) :
      Same (list xs) (list ys)
  | object {ms ns : Members} (names : ∀ k, (ms.find? k).isSome = (ns.find? k).isSome)
      (members : ∀ k x y, ms.find? k = some x → ns.find? k = some y → Same x y) :
      Same (object ms) (object ns)

namespace Json

variable {v w : Value} {ms ns : Members} {p : String × Value}

/-! ## The order of names -/

theorem nameLe_cons {a b : Char} {s t : List Char} :
    nameLe (a :: s) (b :: t) = true ↔ a.toNat < b.toNat ∨ a = b ∧ nameLe s t = true := by
  rw [nameLe]
  by_cases h : a = b
  · simp [h]
  · simp [h]

theorem nameLe_refl (s : List Char) : nameLe s s = true := by
  induction s with
  | nil => rfl
  | cons a s ih => exact nameLe_cons.mpr (.inr ⟨rfl, ih⟩)

theorem nameLe_total (s t : List Char) : nameLe s t = true ∨ nameLe t s = true := by
  induction s generalizing t with
  | nil => exact .inl rfl
  | cons a s ih =>
    cases t with
    | nil => exact .inr rfl
    | cons b t =>
      rw [nameLe_cons, nameLe_cons]
      rcases Nat.lt_trichotomy a.toNat b.toNat with h | h | h
      · exact .inl (.inl h)
      · obtain rfl := Char.toNat_inj.mp h
        exact (ih t).imp (fun h => .inr ⟨rfl, h⟩) fun h => .inr ⟨rfl, h⟩
      · exact .inr (.inl h)

theorem nameLe_trans {s t u : List Char} (h : nameLe s t = true) (h' : nameLe t u = true) :
    nameLe s u = true := by
  induction s generalizing t u with
  | nil => rfl
  | cons a s ih =>
    cases t with
    | nil => cases h
    | cons b t =>
      cases u with
      | nil => cases h'
      | cons c u =>
        rw [nameLe_cons] at h h' ⊢
        obtain h | ⟨rfl, h⟩ := h
        · obtain h' | ⟨rfl, -⟩ := h'
          · exact .inl (Nat.lt_trans h h')
          · exact .inl h
        · exact h'.imp_right fun ⟨hc, h'⟩ => ⟨hc, ih h h'⟩

theorem nameLe_antisymm {s t : List Char} (h : nameLe s t = true) (h' : nameLe t s = true) :
    s = t := by
  induction s generalizing t with
  | nil =>
    cases t with
    | nil => rfl
    | cons b t => cases h'
  | cons a s ih =>
    cases t with
    | nil => cases h
    | cons b t =>
      rw [nameLe_cons] at h h'
      obtain h | ⟨rfl, h⟩ := h
      · obtain h' | ⟨rfl, -⟩ := h'
        · exact absurd h' (Nat.lt_asymm h)
        · exact absurd h (Nat.lt_irrefl _)
      · obtain h' | ⟨-, h'⟩ := h'
        · exact absurd h' (Nat.lt_irrefl _)
        · rw [ih h h']

/-- A member is not behind another one. -/
def Before (p q : String × Value) : Prop :=
  nameLe p.1.toList q.1.toList = true

/-! ## Members -/

theorem perm_insertMember (p : String × Value) (ms : Members) :
    (insertMember p ms).Perm (p :: ms) := by
  induction ms with
  | nil => exact .refl _
  | cons q ms ih =>
    rw [insertMember]
    split_ifs
    · exact .refl _
    · exact (ih.cons q).trans (.swap p q ms)

theorem pairwise_insertMember (h : ms.Pairwise Before) : (insertMember p ms).Pairwise Before := by
  induction ms with
  | nil => exact List.pairwise_singleton Before p
  | cons q ms ih =>
    obtain ⟨first, rest⟩ := List.pairwise_cons.mp h
    rw [insertMember]
    split_ifs with hpq
    · refine List.pairwise_cons.mpr ⟨fun r hr => ?_, h⟩
      rcases List.mem_cons.mp hr with rfl | hr
      · exact hpq
      · exact nameLe_trans hpq (first r hr)
    · refine List.pairwise_cons.mpr ⟨fun r hr => ?_, ih rest⟩
      rcases List.mem_cons.mp ((perm_insertMember p ms).mem_iff.mp hr) with rfl | hr
      · exact (nameLe_total _ _).resolve_left hpq
      · exact first r hr

theorem find?_insertMember (l : String) :
    Members.find? (insertMember p ms) l = if p.1 = l then some p.2 else Members.find? ms l := by
  induction ms with
  | nil => rfl
  | cons q ms ih =>
    rw [insertMember]
    split_ifs with hpq hp hp
    · rw [Members.find?, if_pos hp]
    · rw [Members.find?, if_neg hp]
    · rw [Members.find?, ih, if_pos hp, if_neg]
      -- a member comes in front of an earlier one of its name
      exact fun hq => hpq (by rw [hp, hq]; exact nameLe_refl _)
    · rw [Members.find?, ih, if_neg hp, Members.find?]

theorem pairwise_sortedMembers (ms : Members) : (sortedMembers ms).Pairwise Before := by
  induction ms with
  | nil => exact .nil
  | cons p ms ih => exact pairwise_insertMember ih

theorem find?_sortedMembers (ms : Members) (l : String) :
    Members.find? (sortedMembers ms) l = (Members.find? ms l).map sorted := by
  induction ms with
  | nil => rfl
  | cons p ms ih =>
    rw [sortedMembers, find?_insertMember, ih, Members.find?]
    split_ifs <;> rfl

theorem perm_sortedMembers (ms : Members) :
    (sortedMembers ms).Perm (ms.map fun p => (p.1, sorted p.2)) := by
  induction ms with
  | nil => exact .refl _
  | cons p ms ih => exact (perm_insertMember _ _).trans (ih.cons _)

theorem names_sortedMembers (ms : Members) :
    ((sortedMembers ms).map Prod.fst).Perm (ms.map Prod.fst) := by
  have names := (perm_sortedMembers ms).map Prod.fst
  rwa [List.map_map] at names

/-- **Objects with the same members in the order of their names are the same.** -/
theorem eq_of_find?_eq (hm : ms.Pairwise Before) (hn : ns.Pairwise Before)
    (names : (ms.map Prod.fst).Nodup) (names' : (ns.map Prod.fst).Nodup)
    (same : ∀ l, ms.find? l = ns.find? l) : ms = ns := by
  have members : ∀ p, p ∈ ms ↔ p ∈ ns := fun p => by
    rw [Members.mem_iff_find? names, same, ← Members.mem_iff_find? names']
  have perm : ms.Perm ns :=
    (List.perm_ext_iff_of_nodup (.of_map _ names) (.of_map _ names')).mpr members
  refine perm.eq_of_pairwise (fun p q hp hq hpq hqp => ?_) hm hn
  have name : p.1 = q.1 := String.toList_inj.mp (nameLe_antisymm hpq hqp)
  have value := (Members.mem_iff_find? names').mp ((members p).mp hp)
  rw [name, (Members.mem_iff_find? names').mp hq] at value
  exact Prod.ext name (Option.some.inj value).symm

theorem sortedMembers_eq_iff (names : (ms.map Prod.fst).Nodup) (names' : (ns.map Prod.fst).Nodup) :
    sortedMembers ms = sortedMembers ns ↔
      ∀ l, (ms.find? l).map sorted = (ns.find? l).map sorted := by
  refine ⟨fun h l => ?_, fun h => ?_⟩
  · rw [← find?_sortedMembers, h, find?_sortedMembers]
  · refine eq_of_find?_eq (pairwise_sortedMembers ms) (pairwise_sortedMembers ns)
      ((names_sortedMembers ms).nodup_iff.mpr names)
      ((names_sortedMembers ns).nodup_iff.mpr names') fun l => ?_
    rw [find?_sortedMembers, h, find?_sortedMembers]

/-! ## Values -/

theorem sortedItems_eq_map (xs : List Value) : sortedItems xs = xs.map sorted := by
  induction xs with
  | nil => rfl
  | cons x xs ih => rw [sortedItems, ih, List.map_cons]

theorem jsonlike_sorted (h : v.Jsonlike) : (sorted v).Jsonlike := by
  induction h with
  | list xs _ ih =>
    refine .list _ fun y hy => ?_
    rw [sortedItems_eq_map] at hy
    obtain ⟨x, hx, rfl⟩ := List.mem_map.mp hy
    exact ih x hx
  | object ms names _ ih =>
    refine .object _ ((names_sortedMembers ms).nodup_iff.mpr names) fun q hq => ?_
    obtain ⟨p, hp, rfl⟩ := List.mem_map.mp ((perm_sortedMembers ms).mem_iff.mp hq)
    exact ih p hp
  | null => exact .null
  | bool b => exact .bool b
  | int n => exact .int n
  | text s => exact .text s

theorem ofValue_sorted (v : Value) : Form.ofValue (sorted v) = Form.ofValue v := by
  cases v <;> rfl

theorem sorted_eq_of_same (hv : v.Jsonlike) (hw : w.Jsonlike) (h : v.Same w) :
    sorted v = sorted w := by
  induction h with
  | @list xs ys length items ih =>
    cases hv with | list _ hx =>
    cases hw with | list _ hy =>
    rw [sorted, sorted, sortedItems_eq_map, sortedItems_eq_map]
    refine congrArg Value.list (List.ext_getElem ?_ fun i hi hj => ?_)
    · rw [List.length_map, List.length_map, length]
    · rw [List.length_map] at hi hj
      rw [List.getElem_map, List.getElem_map]
      exact ih i _ _ (List.getElem?_eq_getElem hi) (List.getElem?_eq_getElem hj)
        (hx _ (List.getElem_mem hi)) (hy _ (List.getElem_mem hj))
  | @object ms ns names members ih =>
    cases hv with | object _ hm values =>
    cases hw with | object _ hn values' =>
    rw [sorted, sorted]
    refine congrArg Value.object ((sortedMembers_eq_iff hm hn).mpr fun l => ?_)
    have there := names l
    cases hx : ms.find? l with
    | none =>
      rw [hx, Option.isSome_none, eq_comm, Option.isSome_eq_false_iff] at there
      rw [Option.isNone_iff_eq_none.mp there]
    | some x =>
      rw [hx, Option.isSome_some, eq_comm, Option.isSome_iff_exists] at there
      obtain ⟨y, hy⟩ := there
      rw [hy]
      exact congrArg some (ih l x y hx hy (values _ (Members.mem_of_find? hx))
        (values' _ (Members.mem_of_find? hy)))
  | _ => rfl

theorem same_of_sorted_eq (hv : v.Jsonlike) (hw : w.Jsonlike) (h : sorted v = sorted w) :
    v.Same w := by
  have form : Form.ofValue v = Form.ofValue w := by rw [← ofValue_sorted, h, ofValue_sorted]
  induction hv generalizing w with
  | null =>
    cases hw <;> cases form
    exact .null
  | bool b =>
    cases hw <;> cases form
    exact .bool b
  | int n =>
    cases hw <;> cases form
    cases h
    exact .int n
  | text s =>
    cases hw <;> cases form
    cases h
    exact .text s
  | list xs hx ih =>
    cases hw <;> cases form
    rename_i ys hy
    rw [sorted, sorted, sortedItems_eq_map, sortedItems_eq_map, Value.list.injEq] at h
    refine .list ?_ fun i x y hi hj => ?_
    · rw [← List.length_map sorted, h, List.length_map]
    · have item := congrArg (·[i]?) h
      rw [List.getElem?_map, List.getElem?_map, hi, hj] at item
      have same : sorted x = sorted y := Option.some.inj item
      exact ih x (List.mem_of_getElem? hi) (hy y (List.mem_of_getElem? hj)) same
        (by rw [← ofValue_sorted, same, ofValue_sorted])
  | object ms names hm ih =>
    cases hw <;> cases form
    rename_i ns names' hn
    rw [sorted, sorted, Value.object.injEq, sortedMembers_eq_iff names names'] at h
    refine .object (fun l => ?_) fun l x y hx hy => ?_
    · rw [← Option.isSome_map, h, Option.isSome_map]
    · have member := h l
      rw [hx, hy] at member
      have same : sorted x = sorted y := Option.some.inj member
      exact ih _ (Members.mem_of_find? hx) (hn _ (Members.mem_of_find? hy)) same
        (by rw [← ofValue_sorted, same, ofValue_sorted])

/-- **Sorting forgets the order of members, and nothing else.** -/
theorem sorted_eq_iff (hv : v.Jsonlike) (hw : w.Jsonlike) : sorted v = sorted w ↔ v.Same w :=
  ⟨same_of_sorted_eq hv hw, sorted_eq_of_same hv hw⟩

theorem exists_writeSorted? (h : v.Jsonlike) : ∃ s, writeSorted? v = some s := by
  obtain ⟨t, ht, -⟩ := exists_spells (jsonlike_sorted h)
  exact ⟨_, by rw [writeSorted?, write?, ht]; rfl⟩

/-- **Values have the same text exactly if they are equal but for the order of members.** -/
theorem writeSorted?_eq_iff (hv : v.Jsonlike) (hw : w.Jsonlike) :
    writeSorted? v = writeSorted? w ↔ v.Same w := by
  rw [← sorted_eq_iff hv hw]
  exact ⟨write?_injective (jsonlike_sorted hv) (jsonlike_sorted hw), fun h => congrArg write? h⟩

end Json

end AcmeClient
