import AcmeClient.Proofs.Base64

/-!
# What the readers of base 64 accept

A strict reader wants the unused bits to be zero and the padding to be complete, so that octets have
one text in each alphabet.

* `Base64.sextets_of_ofSextets?`: six-bit values that stand for octets are those of the octets;
* `Base64.letter_of_value?`, `Base64.urlLetter_of_urlValue?`: a letter is that of its value;
* **`Base64.decodeUrl?_eq_some_iff`**, **`Base64.decode?_eq_some_iff`**: a strict reader accepts
  what is written, and nothing else;
* `Base64.length_sextets`, `Base64.length_encode`, `Base64.encode_append`: texts and their lengths;
* `Base64.length_decode?`: a text holds no more octets than characters;
* **`Base64.decodeLenient?_encode`**: the lenient reader gives the same octets.
-/

namespace AcmeClient

namespace Base64

variable {b : Octets} {vs : List Nat}

/-! ## Six-bit values -/

section Group

variable {v w x y : Nat}

theorem toNat_first (hv : v < 64) (hw : w < 64) :
    (UInt8.ofNat (v * 4 + w / 16)).toNat = v * 4 + w / 16 :=
  UInt8.toNat_ofNat_of_lt' (show v * 4 + w / 16 < 256 by omega)

theorem toNat_second (w : Nat) (hx : x < 64) :
    (UInt8.ofNat (w % 16 * 16 + x / 4)).toNat = w % 16 * 16 + x / 4 :=
  UInt8.toNat_ofNat_of_lt' (show w % 16 * 16 + x / 4 < 256 by omega)

theorem toNat_third (x : Nat) (hy : y < 64) :
    (UInt8.ofNat (x % 4 * 64 + y)).toNat = x % 4 * 64 + y :=
  UInt8.toNat_ofNat_of_lt' (show x % 4 * 64 + y < 256 by omega)

end Group

theorem sextets_of_ofSextets? (h : ofSextets? vs = some b) (hv : ∀ v ∈ vs, v < 64) :
    sextets b = vs := by
  fun_induction ofSextets? vs generalizing b with
  | case1 => cases h; rfl
  | case2 => cases h
  | case3 v w zero =>
    cases h
    obtain ⟨hv, hw⟩ : v < 64 ∧ w < 64 := by simpa using hv
    rw [sextets, toNat_first hv hw]
    simp only [List.cons.injEq, and_true]
    omega
  | case4 => cases h
  | case5 v w x zero =>
    cases h
    obtain ⟨hv, hw, hx⟩ : v < 64 ∧ w < 64 ∧ x < 64 := by simpa using hv
    rw [sextets, toNat_first hv hw, toNat_second w hx]
    simp only [List.cons.injEq, and_true]
    omega
  | case6 => cases h
  | case7 v w x y r ih =>
    obtain ⟨t, ht, rfl⟩ := Option.map_eq_some_iff.mp h
    obtain ⟨hv, hw, hx, hy, hr⟩ : v < 64 ∧ w < 64 ∧ x < 64 ∧ y < 64 ∧ ∀ u ∈ r, u < 64 := by
      simpa using hv
    rw [sextets, ih ht hr, toNat_first hv hw, toNat_second w hx, toNat_third x hy]
    simp only [List.cons.injEq, and_true]
    omega

theorem length_sextets (b : Octets) : (sextets b).length = (4 * b.length + 2) / 3 := by
  induction b using sextets.induct with
  | case1 => rfl
  | case2 a => simp [sextets]
  | case3 a b => simp [sextets]
  | case4 a b c r ih =>
    simp only [sextets, List.length_cons, ih]
    omega

theorem sextets_append {a : Octets} (h : a.length % 3 = 0) (b : Octets) :
    sextets (a ++ b) = sextets a ++ sextets b := by
  induction a using sextets.induct with
  | case1 => rfl
  | case2 x => cases h
  | case3 x y => cases h
  | case4 x y z r ih =>
    have rest : r.length % 3 = 0 := by
      simp only [List.length_cons] at h
      omega
    simp only [List.cons_append, sextets, ih rest]

/-! ## Letters -/

theorem sharedLetter_of_sharedValue? {c : Char} {v : Nat} (h : sharedValue? c = some v) :
    v < 62 ∧ sharedLetter v = c := by
  unfold sharedValue? at h
  split_ifs at h with upper lower digit
  · have bounds : 65 ≤ c.toNat ∧ c.toNat ≤ 90 := upper
    obtain rfl := Option.some.inj h
    refine ⟨by omega, ?_⟩
    rw [sharedLetter, if_pos (by omega), Nat.add_sub_cancel' bounds.1, Char.ofNat_toNat]
  · have bounds : 97 ≤ c.toNat ∧ c.toNat ≤ 122 := lower
    obtain rfl := Option.some.inj h
    refine ⟨by omega, ?_⟩
    rw [sharedLetter, if_neg (by omega), if_pos (by omega), Nat.add_sub_cancel' (by omega),
      Char.ofNat_toNat]
  · have bounds : 48 ≤ c.toNat ∧ c.toNat ≤ 57 := digit
    obtain rfl := Option.some.inj h
    refine ⟨by omega, ?_⟩
    rw [sharedLetter, if_neg (by omega), if_neg (by omega), Nat.add_sub_cancel, Char.ofNat_toNat]

/-- A letter of the standard alphabet is that of its value. -/
theorem letter_of_value? {c : Char} {v : Nat} (h : value? c = some v) : v < 64 ∧ letter v = c := by
  unfold value? at h
  split_ifs at h with plus slash
  · cases h; exact ⟨by decide, plus.symm⟩
  · cases h; exact ⟨by decide, slash.symm⟩
  · obtain ⟨less, same⟩ := sharedLetter_of_sharedValue? h
    refine ⟨by omega, ?_⟩
    rw [letter, if_neg (by omega), if_neg (by omega), same]

/-- A letter of the URL alphabet is that of its value. -/
theorem urlLetter_of_urlValue? {c : Char} {v : Nat} (h : urlValue? c = some v) :
    v < 64 ∧ urlLetter v = c := by
  unfold urlValue? at h
  split_ifs at h with hyphen underscore
  · cases h; exact ⟨by decide, hyphen.symm⟩
  · cases h; exact ⟨by decide, underscore.symm⟩
  · obtain ⟨less, same⟩ := sharedLetter_of_sharedValue? h
    refine ⟨by omega, ?_⟩
    rw [urlLetter, if_neg (by omega), if_neg (by omega), same]

section Values

variable {letter : Nat → Char} {value? : Char → Option Nat}

theorem map_of_mapM (h : ∀ {c v}, value? c = some v → v < 64 ∧ letter v = c) {s : List Char}
    (values : s.mapM value? = some vs) : s = vs.map letter ∧ ∀ v ∈ vs, v < 64 := by
  rw [mapM_eq_some_iff] at values
  induction s generalizing vs with
  | nil =>
    obtain rfl := List.map_eq_nil_iff.mp values.symm
    exact ⟨rfl, nofun⟩
  | cons c s ih =>
    cases vs with
    | nil => cases values
    | cons v vs =>
      obtain ⟨first, rest⟩ := List.cons.inj values
      obtain ⟨less, rfl⟩ := h first
      obtain ⟨rfl, each⟩ := ih rest
      exact ⟨rfl, List.forall_mem_cons.mpr ⟨less, each⟩⟩

theorem letters_of_values (h : ∀ {c v}, value? c = some v → v < 64 ∧ letter v = c) {s : List Char}
    (values : s.mapM value? = some vs) (octets : ofSextets? vs = some b) :
    s = (sextets b).map letter := by
  obtain ⟨rfl, each⟩ := map_of_mapM h values
  rw [sextets_of_ofSextets? octets each]

end Values

/-- **The strict reader of the URL alphabet accepts what is written, and nothing else.** -/
theorem decodeUrl?_eq_some_iff {s : String} : decodeUrl? s = some b ↔ s = encodeUrl b := by
  constructor
  · intro h
    obtain ⟨vs, values, octets⟩ := Option.bind_eq_some_iff.mp h
    rw [encodeUrl, ← letters_of_values urlLetter_of_urlValue? values octets, String.ofList_toList]
  · rintro rfl
    exact decodeUrl?_encodeUrl b

/-- **The strict reader of the standard alphabet accepts what is written, and nothing else.** -/
theorem decode?_eq_some_iff {s : List Char} : decode? s = some b ↔ s = encode b := by
  constructor
  · intro h
    simp only [decode?, Option.bind_eq_bind, Option.bind_eq_some_iff,
      Option.ite_none_right_eq_some] at h
    obtain ⟨vs, values, c, octets, rest, ⟨⟩⟩ := h
    rw [encode, ← letters_of_values letter_of_value? values octets, ← rest,
      List.takeWhile_append_dropWhile]
  · rintro rfl
    exact decode?_encode b

/-! ## Padded texts -/

theorem length_encode (b : Octets) : (encode b).length = 4 * ((b.length + 2) / 3) := by
  rw [encode, List.length_append, List.length_map, length_sextets, List.length_replicate, padding]
  omega

/-- A text stands for no more octets than it has characters. -/
theorem length_decode? {s : List Char} (h : decode? s = some b) : b.length ≤ s.length := by
  rw [decode?_eq_some_iff.mp h, length_encode]
  omega

theorem padding_eq (n : Nat) : padding n = (4 - (4 * n + 2) / 3 % 4) % 4 := by
  rw [padding]
  obtain h | h | h : n % 3 = 0 ∨ n % 3 = 1 ∨ n % 3 = 2 := by omega
  all_goals omega

theorem encode_eq_nil_iff : encode b = [] ↔ b = [] := by
  rw [← List.length_eq_zero_iff, length_encode, ← List.length_eq_zero_iff]
  omega

theorem encode_append {a : Octets} (h : a.length % 3 = 0) (b : Octets) :
    encode (a ++ b) = encode a ++ encode b := by
  have whole : padding a.length = 0 := by
    rw [padding]
    omega
  have rest : padding (a ++ b).length = padding b.length := by
    rw [padding, padding, List.length_append]
    omega
  rw [encode, encode, encode, sextets_append h, List.map_append, whole, rest, List.replicate_zero,
    List.append_nil, List.append_assoc]

/-! ## The lenient reader -/

theorem lenientSextets?_letters (hv : ∀ v ∈ vs, v < 64) {group : Nat} (hg : group < 4)
    (s : List Char) : lenientSextets? group 0 (vs.map letter ++ s) =
      (lenientSextets? ((group + vs.length) % 4) 0 s).map (vs ++ ·) := by
  induction vs generalizing group with
  | nil =>
    rw [List.length_nil, Nat.add_zero, Nat.mod_eq_of_lt hg]
    exact Option.map_id'.symm
  | cons v vs ih =>
    have first : v < 64 := hv v List.mem_cons_self
    have count : ((group + 1) % 4 + vs.length) % 4 = (group + (vs.length + 1)) % 4 := by omega
    rw [List.map_cons, List.cons_append, lenientSextets?, if_neg (letter_ne v first).1,
      value?_letter v first]
    dsimp only
    rw [ih (fun w hw => hv w (List.mem_cons_of_mem v hw)) (Nat.mod_lt _ (by decide)), count,
      Option.map_map, List.length_cons]
    rfl

theorem lenientSextets?_padding (n : Nat) :
    lenientSextets? ((4 * n + 2) / 3 % 4) 0 (List.replicate (padding n) '=') = some [] := by
  obtain h | h | h : n % 3 = 0 ∨ n % 3 = 1 ∨ n % 3 = 2 := by omega
  · rw [padding, h, show (4 * n + 2) / 3 % 4 = 0 by omega]
    rfl
  · rw [padding, h, show (4 * n + 2) / 3 % 4 = 2 by omega]
    rfl
  · rw [padding, h, show (4 * n + 2) / 3 % 4 = 3 by omega]
    rfl

theorem wholeOctets_of_ofSextets? (h : ofSextets? vs = some b) : wholeOctets vs = b := by
  fun_induction ofSextets? vs generalizing b with
  | case1 => cases h; rfl
  | case2 => cases h
  | case3 => cases h; rfl
  | case4 => cases h
  | case5 => cases h; rfl
  | case6 => cases h
  | case7 v w x y r ih =>
    obtain ⟨t, ht, rfl⟩ := Option.map_eq_some_iff.mp h
    rw [wholeOctets, ih ht]

/-- **The lenient reader gives the octets that were written.** -/
theorem decodeLenient?_encode (b : Octets) : decodeLenient? (encode b) = some b := by
  rw [decodeLenient?, encode, lenientSextets?_letters (sextets_lt b) (by decide), Nat.zero_add,
    length_sextets, lenientSextets?_padding, Option.map_some, Option.map_some, List.append_nil,
    wholeOctets_of_ofSextets? (ofSextets?_sextets b)]

end Base64

end AcmeClient
