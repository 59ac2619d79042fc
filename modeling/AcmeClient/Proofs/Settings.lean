import Mathlib.Data.List.Forall2
import AcmeClient.Problem
import AcmeClient.Settings

/-!
# Layers of settings

Each of the four names has its value from the first layer that has it. The settings file is the last
layer but one, and the defaults are a last layer that has all names. So settings that were read
before are a layer below which nothing is looked at.

* `Settings.names`, `Settings.defaults`: the names, and the last layer;
* `Settings.first?`: the value of a name in the first layer that has it;
* `Settings.Accepted`: layers in which the names can be looked for;
* `Settings.read_of_accepted`, `Settings.read_of_not_accepted`: what is read from layers;
* **`Settings.layers_compose`**: layers are merged one by one as they are at once.
-/

namespace AcmeClient

namespace Settings

open Problem (membersOf)

/-- The names of settings. -/
def names : List String :=
  ["api", "authority", "account_key", "account_url"]

/-- The settings that hold where no layer has a name. -/
def defaults (directory : String) : Settings :=
  ⟨defaultApi, defaultAuthority,
    .text (String.ofList (Path.join directory.toList "account.key".toList)), .null⟩

/-- The value of a name in the first of several objects that has it. -/
def first? (name : String) (ls : List Members) : Option Value :=
  ls.findSome? fun l => Members.find? l name

/-- The names can be looked for in every layer. -/
def Accepted (ls : List Value) : Prop :=
  ∀ l ∈ ls, ∀ name ∈ names, inLayer name l = .ok ((membersOf l).find? name)

/-- Layers in which looking for the four names has the same outcome. -/
def Alike (l m : Value) : Prop :=
  ∀ name ∈ names, inLayer name l = inLayer name m

variable {name : String} {ls ms : List Value} {l : Value} {g : Members} {w : String} {s t : Settings}

/-! ## Names -/

theorem find?_members : ∀ name ∈ names, ∃ v, s.members.find? name = some v := by
  simp only [names, List.forall_mem_cons]
  exact ⟨⟨_, rfl⟩, ⟨_, rfl⟩, ⟨_, rfl⟩, ⟨_, rfl⟩, nofun⟩

theorem eq_of_find? (h : ∀ name ∈ names, s.members.find? name = t.members.find? name) : s = t := by
  simp only [names, List.forall_mem_cons] at h
  obtain ⟨api, authority, accountKey, accountUrl, -⟩ := h
  cases s
  cases t
  -- each of the four says that two values are the same
  cases api
  cases authority
  cases accountKey
  cases accountUrl
  rfl

theorem first?_cons (m : Members) (ls : List Members) :
    first? name (m :: ls) = (m.find? name).or (first? name ls) := by
  rw [first?, List.findSome?_cons]
  cases m.find? name <;> rfl

theorem first?_append (ls ms : List Members) :
    first? name (ls ++ ms) = (first? name ls).or (first? name ms) := by
  rw [first?, List.findSome?_append]
  rfl

/-! ## One name in all layers -/

theorem inLayer_cases (name : String) (l : Value) :
    inLayer name l = .ok ((membersOf l).find? name) ∨ inLayer name l = .error noLayer := by
  cases l with
  | object ms => exact .inl rfl
  | text s =>
    rw [inLayer]
    split
    · exact .inr rfl
    · exact .inl rfl
  | list xs =>
    rw [inLayer]
    split
    · exact .inr rfl
    · exact .inl rfl
  | _ => exact .inr rfl

theorem accepted_objects (ls : List Members) : Accepted (ls.map .object) := by
  intro l hl name _
  obtain ⟨m, -, rfl⟩ := List.mem_map.mp hl
  rfl

theorem accepted_append : Accepted (ls ++ ms) ↔ Accepted ls ∧ Accepted ms :=
  List.forall_mem_append

/-- A name that can be looked for in every layer has the value of the first one that has it. -/
theorem local?_of_accepted (h : ∀ l ∈ ls, inLayer name l = .ok ((membersOf l).find? name)) :
    local? name ls = .ok (first? name (ls.map membersOf)) := by
  induction ls with
  | nil => rfl
  | cons l ls ih =>
    rw [List.forall_mem_cons] at h
    rw [local?, h.1, ih h.2, List.map_cons, first?_cons]
    rfl

/-- One layer in which a name cannot be looked for is enough to fail. -/
theorem local?_of_not_accepted (h : ∃ l ∈ ls, inLayer name l = .error noLayer) :
    local? name ls = .error noLayer := by
  induction ls with
  | nil =>
    obtain ⟨l, hl, -⟩ := h
    cases hl
  | cons m ls ih =>
    rw [local?]
    rcases inLayer_cases name m with hm | hm
    · obtain ⟨l, hl, bad⟩ := h
      rcases List.mem_cons.mp hl with rfl | hl
      · cases hm.symm.trans bad
      · rw [hm, ih ⟨l, hl, bad⟩]
        rfl
    · rw [hm]
      rfl

theorem value_of_local? {d : Value} {o : Option Value} (h : local? name ls = .ok o) :
    value name ls (.object g) d = .ok ((o.or (g.find? name)).getD d) := by
  rw [value, h]
  cases o <;> rfl

theorem value_of_error {d : Value} {e : Error} (h : local? name ls = .error e) :
    value name ls (.object g) d = .error e := by
  rw [value, h]
  rfl

theorem value_congr {ls' : List Value} {g' : Members} {d : Value}
    (layers : List.Forall₂ (fun l m => inLayer name l = inLayer name m) ls ls')
    (file : g.find? name = g'.find? name) :
    value name ls (.object g) d = value name ls' (.object g') d := by
  have same : local? name ls = local? name ls' := by
    induction layers with
    | nil => rfl
    | cons hl _ ih => rw [local?, local?, hl, ih]
  rw [value, value, same, inFile, inFile, file]

/-! ## The settings -/

theorem read_eq (ls : List Value) (g : Members) (w : String) : read ls (.object g) (.text w) = (do
    let api ← value "api" ls (.object g) (defaults w).api
    let authority ← value "authority" ls (.object g) (defaults w).authority
    let accountKey ← value "account_key" ls (.object g) (defaults w).accountKey
    let accountUrl ← value "account_url" ls (.object g) (defaults w).accountUrl
    .ok ⟨api, authority, accountKey, accountUrl⟩) :=
  rfl

/-- The value of a name is the one that the first layer gives it, with the settings file and the
defaults as further layers. -/
theorem value_of_accepted {d : Value} (h : Accepted ls) (g : Members) (w : String)
    (hn : name ∈ names) (hd : (defaults w).members.find? name = some d) :
    ∃ v, value name ls (.object g) d = .ok v ∧
      first? name (ls.map membersOf ++ [g, (defaults w).members]) = some v := by
  refine ⟨_, value_of_local? (local?_of_accepted fun l hl => h l hl name hn), ?_⟩
  rw [first?_append, first?_cons, first?_cons, hd]
  cases first? name (ls.map membersOf) <;> cases g.find? name <;> rfl

/-- **Where the names can be looked for in every layer, each has the value of the first layer that
has it.** -/
theorem read_of_accepted (h : Accepted ls) (g : Members) (w : String) :
    ∃ s, read ls (.object g) (.text w) = .ok s ∧ ∀ name ∈ names,
      s.members.find? name = first? name (ls.map membersOf ++ [g, (defaults w).members]) := by
  obtain ⟨api, hapi, first⟩ := value_of_accepted h g w (show "api" ∈ names by decide) rfl
  obtain ⟨authority, hauthority, second⟩ :=
    value_of_accepted h g w (show "authority" ∈ names by decide) rfl
  obtain ⟨accountKey, hkey, third⟩ :=
    value_of_accepted h g w (show "account_key" ∈ names by decide) rfl
  obtain ⟨accountUrl, hurl, fourth⟩ :=
    value_of_accepted h g w (show "account_url" ∈ names by decide) rfl
  refine ⟨⟨api, authority, accountKey, accountUrl⟩, ?_, ?_⟩
  · rw [read_eq, hapi, hauthority, hkey, hurl]
    rfl
  · simp only [names, List.forall_mem_cons]
    exact ⟨first.symm, second.symm, third.symm, fourth.symm, nofun⟩

theorem bind_eq_noLayer {α β : Type} {x : Except Error α} {f : α → Except Error β}
    (hx : (∃ a, x = .ok a) ∨ x = .error noLayer) (hf : ∀ a, x = .ok a → f a = .error noLayer) :
    (x >>= f) = .error noLayer := by
  rcases hx with ⟨a, rfl⟩ | rfl
  · exact hf a rfl
  · rfl

/-- **Where a name cannot be looked for in some layer, there are no settings.** -/
theorem read_of_not_accepted (h : ¬ Accepted ls) (g : Members) (w : String) :
    read ls (.object g) (.text w) = .error noLayer := by
  have fails {name : String} {l : Value} (hl : l ∈ ls)
      (bad : inLayer name l ≠ .ok ((membersOf l).find? name)) (d : Value) :
      value name ls (.object g) d = .error noLayer :=
    value_of_error (local?_of_not_accepted ⟨l, hl, (inLayer_cases name l).resolve_left bad⟩)
  have each (name : String) (d : Value) : (∃ v, value name ls (.object g) d = .ok v) ∨
      value name ls (.object g) d = .error noLayer := by
    by_cases fine : ∀ l ∈ ls, inLayer name l = .ok ((membersOf l).find? name)
    · exact .inl ⟨_, value_of_local? (local?_of_accepted fine)⟩
    · push Not at fine
      obtain ⟨l, hl, bad⟩ := fine
      exact .inr (fails hl bad d)
  unfold Accepted at h
  push Not at h
  obtain ⟨l, hl, name, hn, bad⟩ := h
  -- whichever name fails first, the error is the same
  rw [read_eq]
  refine bind_eq_noLayer (each _ _) fun _ hapi => bind_eq_noLayer (each _ _) fun _ hauthority =>
    bind_eq_noLayer (each _ _) fun _ hkey => bind_eq_noLayer (each _ _) fun _ hurl => ?_
  simp only [names, List.mem_cons, List.not_mem_nil, or_false] at hn
  rcases hn with rfl | rfl | rfl | rfl
  · cases hapi.symm.trans (fails hl bad _)
  · cases hauthority.symm.trans (fails hl bad _)
  · cases hkey.symm.trans (fails hl bad _)
  · cases hurl.symm.trans (fails hl bad _)

theorem read_congr {ls' : List Value} {g' : Members} (layers : List.Forall₂ Alike ls ls')
    (file : Alike (.object g) (.object g')) :
    read ls (.object g) (.text w) = read ls' (.object g') (.text w) := by
  have same (name : String) (hn : name ∈ names) (d : Value) :
      value name ls (.object g) d = value name ls' (.object g') d :=
    value_congr (layers.imp fun l m h => h name hn) (Except.ok.inj (file name hn))
  simp only [read_eq, same "api" (by decide), same "authority" (by decide),
    same "account_key" (by decide), same "account_url" (by decide)]

/-- **Settings are a layer below which nothing is looked at.** -/
theorem read_append (ls ms : List Value) (g : Members) (w w' : String) :
    read (ls ++ ms) (.object g) (.text w) =
      read ms (.object g) (.text w) >>= fun s => read ls (.object s.members) (.text w') := by
  by_cases lower : Accepted ms
  · obtain ⟨s, hs, below⟩ := read_of_accepted lower g w
    rw [hs]
    change _ = read ls (.object s.members) (.text w')
    by_cases upper : Accepted ls
    · obtain ⟨t, ht, two⟩ := read_of_accepted upper s.members w'
      obtain ⟨u, hu, one⟩ := read_of_accepted (accepted_append.mpr ⟨upper, lower⟩) g w
      rw [hu, ht]
      congr 1
      refine eq_of_find? fun name hn => ?_
      obtain ⟨v, hv⟩ := find?_members (s := s) name hn
      calc u.members.find? name
        _ = (first? name (ls.map membersOf)).or (s.members.find? name) := by
          rw [one name hn, List.map_append, List.append_assoc, first?_append, ← below name hn]
        _ = t.members.find? name := by
          rw [two name hn, first?_append, first?_cons, hv]
          rfl
    · rw [read_of_not_accepted upper,
        read_of_not_accepted fun h => upper (accepted_append.mp h).1]
  · rw [read_of_not_accepted lower, read_of_not_accepted fun h => lower (accepted_append.mp h).2]
    rfl

theorem read_flatMap (steps : List (List Value × String)) (ms : List Value) (g : Members)
    (w : String) : read (steps.flatMap Prod.fst ++ ms) (.object g) (.text w) =
      steps.foldr (fun p r => r >>= fun s => read p.1 (.object s.members) (.text p.2))
        (read ms (.object g) (.text w)) := by
  induction steps with
  | nil => rfl
  | cons p steps ih =>
    rw [List.flatMap_cons, List.append_assoc, List.foldr_cons, read_append _ _ g w p.2, ih]

theorem read_members (s : Settings) (w : String) :
    read [] (.object s.members) (.text w) = .ok s := by
  obtain ⟨t, ht, same⟩ := read_of_accepted (show Accepted [] from nofun) s.members w
  rw [ht]
  congr 1
  refine eq_of_find? fun name hn => ?_
  obtain ⟨v, hv⟩ := find?_members (s := s) name hn
  rw [same name hn, List.map_nil, List.nil_append, first?_cons, hv]
  rfl

theorem first?_of_above {above below : List Members} {n : Members} {v : Value}
    (none : ∀ m ∈ above, Members.find? m name = none) (some : n.find? name = some v) :
    first? name (above ++ n :: below) = .some v := by
  rw [first?_append, first?_cons, some, first?, List.findSome?_eq_none_iff.mpr none]
  rfl

/-- **Layers of settings compose.** Settings are the same whether layers are merged all at once or
in steps, wherever the work directory of each step is, and so is the error where a layer is none.
Complete settings are a fixed point. Only the four names of a layer matter. Each of them has its
value from the first layer that has it, the settings file among them, so that null in one layer
hides all those below it. -/
theorem layers_compose (ls ms : List Value) (g : Members) (w w' : String) :
    (read (ls ++ ms) (.object g) (.text w) =
        read ms (.object g) (.text w) >>= fun s => read ls (.object s.members) (.text w')) ∧
      (∀ steps : List (List Value × String),
        read (steps.flatMap Prod.fst ++ ms) (.object g) (.text w) =
          steps.foldr (fun p r => r >>= fun s => read p.1 (.object s.members) (.text p.2))
            (read ms (.object g) (.text w))) ∧
      (∀ s : Settings, read [] (.object s.members) (.text w') = .ok s) ∧
      (∀ ls' g', List.Forall₂ Alike ls ls' → Alike (.object g) (.object g') →
        read ls (.object g) (.text w) = read ls' (.object g') (.text w)) ∧
      ∀ ns : List Members, ∃ s, read (ns.map .object) (.object g) (.text w) = .ok s ∧
        ∀ name ∈ names,
          s.members.find? name = first? name (ns ++ [g, (defaults w).members]) ∧
          ∀ above n below, ns ++ [g] = above ++ n :: below →
            (∀ m ∈ above, Members.find? m name = none) → n.find? name = some .null →
              s.members.find? name = some .null := by
  refine ⟨read_append ls ms g w w', fun steps => read_flatMap steps ms g w,
    fun s => read_members s w', fun ls' g' => read_congr, fun ns => ?_⟩
  obtain ⟨s, hs, values⟩ := read_of_accepted (accepted_objects ns) g w
  have same : (ns.map Value.object).map membersOf = ns := by
    rw [List.map_map]
    exact List.map_id ns
  rw [same] at values
  refine ⟨s, hs, fun name hn => ⟨values name hn, fun above n below split none null => ?_⟩⟩
  have whole : ns ++ [g, (defaults w).members] = above ++ n :: (below ++ [(defaults w).members]) := by
    rw [← List.cons_append, ← List.append_assoc, ← split, List.append_assoc]
    rfl
  rw [values name hn, whole, first?_of_above none null]

/-- Null hides what another layer says, and the default. -/
theorem layers_compose_null : ∃ s,
    read [.object [("authority", .null)], .object [("authority", .text "https://ca")]] (.object [])
      (.text "/srv") = .ok s ∧ s.members.find? "authority" = some .null := by
  obtain ⟨s, hs, values⟩ := (layers_compose [] [] [] "/srv" "/srv").2.2.2.2
    [[("authority", .null)], [("authority", .text "https://ca")]]
  exact ⟨s, hs, (values "authority" (by decide)).2 [] _ _ rfl nofun rfl⟩

end Settings

end AcmeClient
