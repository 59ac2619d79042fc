import Mathlib.Tactic.SplitIfs
import AcmeClient.Value

/-!
# Members

What an object holds, and what it holds after a member was set. A member that is set again keeps its
place.

* `Members.mem_iff_find?`: what is a member, where no name occurs twice;
* `Members.find?_set_self`, `Members.find?_set_of_ne`, `Members.mem_set`: the members afterwards;
* `Members.set_of_find?`: nothing changes if the member had this value;
* `Members.set_of_notMem`: a new member comes at the end;
* `Members.names_set_of_find?`: the names and their order stay if there was such a member.
-/

namespace AcmeClient

namespace Members

variable {ms : Members} {k l : String} {v w : Value}

theorem mem_of_find? (h : ms.find? k = some v) : (k, v) ∈ ms := by
  induction ms with
  | nil => cases h
  | cons p r ih =>
    rw [find?] at h
    split_ifs at h with hk
    · cases h
      subst hk
      exact List.mem_cons_self
    · exact List.mem_cons_of_mem p (ih h)

theorem mem_iff_find? (names : (ms.map Prod.fst).Nodup) : (k, v) ∈ ms ↔ ms.find? k = some v := by
  refine ⟨fun h => ?_, mem_of_find?⟩
  induction ms with
  | nil => cases h
  | cons p r ih =>
    rw [List.map_cons, List.nodup_cons] at names
    rw [find?]
    rcases List.mem_cons.mp h with rfl | h
    · rw [if_pos rfl]
    · have other : p.1 ≠ k := by
        rintro rfl
        exact names.1 (List.mem_map.mpr ⟨_, h, rfl⟩)
      rw [if_neg other, ih names.2 h]

@[simp] theorem find?_set_self : (set ms k v).find? k = some v := by
  induction ms with
  | nil => simp [set, find?]
  | cons p r ih =>
    rw [set]
    split_ifs with h
    · rw [find?, if_pos h]
    · rw [find?, if_neg h, ih]

@[simp] theorem find?_set_of_ne (hkl : k ≠ l) : (set ms k v).find? l = ms.find? l := by
  induction ms with
  | nil => simp [set, find?, hkl]
  | cons p r ih =>
    rw [set]
    split_ifs with h
    · rw [find?, find?, if_neg (h ▸ hkl)]
      rw [if_neg (h ▸ hkl)]
    · rw [find?, find?, ih]

theorem mem_set {p : String × Value} (h : p ∈ set ms k v) : p ∈ ms ∨ p.2 = v := by
  induction ms with
  | nil => exact .inr (List.mem_singleton.mp h ▸ rfl)
  | cons q r ih =>
    rw [set] at h
    split_ifs at h with hk
    · rcases List.mem_cons.mp h with rfl | h
      · exact .inr rfl
      · exact .inl (List.mem_cons_of_mem q h)
    · rcases List.mem_cons.mp h with rfl | h
      · exact .inl List.mem_cons_self
      · exact (ih h).imp_left (List.mem_cons_of_mem q)

theorem set_of_find? (h : ms.find? k = some v) : set ms k v = ms := by
  induction ms with
  | nil => cases h
  | cons p r ih =>
    rw [find?] at h
    rw [set]
    split_ifs at h ⊢ with hk
    · obtain ⟨k', v'⟩ := p
      cases h
      rfl
    · rw [ih h]

/-- A member that is not there yet is added at the end. -/
theorem set_of_notMem (h : k ∉ ms.map Prod.fst) : set ms k v = ms ++ [(k, v)] := by
  induction ms with
  | nil => rfl
  | cons p r ih =>
    rw [List.map_cons, List.mem_cons, not_or] at h
    rw [set, if_neg (Ne.symm h.1), ih h.2, List.cons_append]

theorem names_set_of_find? (h : ms.find? k = some w) :
    (set ms k v).map Prod.fst = ms.map Prod.fst := by
  induction ms with
  | nil => cases h
  | cons p r ih =>
    rw [find?] at h
    rw [set]
    split_ifs at h ⊢ with hk
    · rfl
    · rw [List.map_cons, List.map_cons, ih h]

@[simp] theorem get_set_self : (set ms k v).get k = v := by
  rw [get, find?_set_self, Option.getD_some]

end Members

end AcmeClient
