import Mathlib.Data.List.Basic
import Mathlib.Tactic.SplitIfs
import AcmeClient.Network

/-!
# Where a request goes

An address is taken out of blanks, angle brackets and a mark around it, and an empty fragment is
left out. Any other address is requested as it is.

* `Target.unwrap_sublist`: what is taken out of an address is part of it;
* `Target.text_splitFragment`: the address with its fragment;
* **`Target.text_eq_iff`**: the addresses that are requested as they are.
-/

namespace AcmeClient

theorem Text.strip_sublist (p : Char → Bool) (s : List Char) : (Text.strip p s).Sublist s := by
  have h := (List.dropWhile_sublist p (l := (s.dropWhile p).reverse)).reverse
  rw [List.reverse_reverse] at h
  exact h.trans (List.dropWhile_sublist p)

theorem Text.eq_append_afterLast {c : Char} {s : List Char} (h : c ∈ s) :
    ∃ a, s = a ++ c :: Text.afterLast c s ∧ c ∉ Text.afterLast c s := by
  obtain ⟨f, a, hs, hf⟩ := List.eq_append_cons_of_mem (List.mem_reverse.mpr h)
  have behind : Text.afterLast c s = f.reverse := by
    rw [Text.afterLast, hs, List.takeWhile_append_of_pos (by
      intro d hd
      simpa using fun h : d = c => hf (h ▸ hd)), List.takeWhile_cons_of_neg (by simp), List.append_nil]
  refine ⟨a.reverse, ?_, ?_⟩
  · rw [behind, ← List.reverse_reverse s, hs]
    simp
  · rw [behind]
    exact fun h => hf (List.mem_reverse.mp h)

namespace Target

variable {s : List Char} {u : String} {g : Target}

/-- What is taken out of an address is part of it. -/
theorem unwrap_sublist : (unwrap s).Sublist s := by
  have trimmed : ∀ r : List Char, (Text.trim r).Sublist r := Text.strip_sublist _
  have inner : ∀ r : List Char, (Text.trim ((r.drop 1).dropLast)).Sublist r := fun r =>
    (trimmed _).trans ((List.dropLast_sublist _).trans (List.drop_sublist 1 r))
  unfold unwrap
  dsimp only
  split_ifs
  · exact (trimmed _).trans ((List.drop_sublist 4 _).trans ((inner _).trans (trimmed s)))
  · exact (inner _).trans (trimmed s)
  · exact (trimmed _).trans ((List.drop_sublist 4 _).trans (trimmed s))
  · exact trimmed s

/-- An address with its fragment is the whole address, but for an empty fragment. -/
theorem text_splitFragment :
    (splitFragment s).text = String.ofList (if s.getLast? = some '#' then s.dropLast else s) := by
  unfold splitFragment text
  by_cases h : '#' ∈ s
  · obtain ⟨a, ha, hf⟩ := Text.eq_append_afterLast h
    have address : s.take (s.length - (Text.afterLast '#' s).length - 1) = a := by
      have length := congrArg List.length ha
      rw [List.length_append, List.length_cons] at length
      rw [show s.length - (Text.afterLast '#' s).length - 1 = a.length by omega]
      conv_lhs => rw [ha]
      exact List.take_left
    rw [if_pos (by simpa using h)]
    dsimp only
    rw [address]
    generalize Text.afterLast '#' s = f at ha hf
    subst ha
    rcases List.eq_nil_or_concat f with rfl | ⟨f, d, rfl⟩
    · simp [Url.marked]
    · have hd : d ≠ '#' := by
        rintro rfl
        exact hf (by simp)
      have last : (a ++ '#' :: f.concat d).getLast? = some d := by
        rw [List.concat_eq_append, ← List.cons_append, ← List.append_assoc, List.getLast?_concat]
      rw [last, if_neg (by simpa using hd)]
      simp [Url.marked]
  · rw [if_neg (by simpa using h), if_neg]
    · simp [Url.marked]
    · exact fun hl => h (List.mem_of_getLast? hl)

/-- **An address is requested as it is, unless it is wrapped or ends with an empty fragment.** -/
theorem text_eq_iff (h : read? u = some g) :
    g.text = u ↔ unwrap u.toList = u.toList ∧ u.toList.getLast? ≠ some '#' := by
  have text : g.text = String.ofList (if (unwrap u.toList).getLast? = some '#'
      then (unwrap u.toList).dropLast else unwrap u.toList) := by
    unfold read? at h
    dsimp only at h
    split_ifs at h
    obtain rfl := Option.some.inj h
    exact text_splitFragment
  rw [text]
  constructor
  · intro hu
    have hu := congrArg String.toList hu
    rw [String.toList_ofList] at hu
    have short : (unwrap u.toList).length ≤ u.toList.length := unwrap_sublist.length_le
    by_cases hl : (unwrap u.toList).getLast? = some '#'
    · rw [if_pos hl] at hu
      have ne : unwrap u.toList ≠ [] := by
        intro hn
        rw [hn] at hl
        cases hl
      have length := congrArg List.length hu
      rw [List.length_dropLast] at length
      have := List.length_pos_iff.mpr ne
      omega
    · rw [if_neg hl] at hu
      exact ⟨hu, hu ▸ hl⟩
  · rintro ⟨hw, hl⟩
    rw [hw, if_neg hl, String.ofList_toList]

end Target

end AcmeClient
