import AcmeClient.Proofs.Base64.Strict
import AcmeClient.Proofs.Client.Posting
import AcmeClient.Proofs.Json.Unambiguous

/-!
# The URL alphabet

Without padding a text in the URL alphabet still determines its octets, and the point between two
such texts is found again.

* `Base64.IsUrlLetter`, `Base64.isUrlLetter_of_mem`: the characters of the alphabet;
* `Base64.length_encodeUrl`: the number of letters;
* `Base64.standard`, **`Base64.standard_encodeUrl`**: with padding and in the standard alphabet it
  is the standard text;
* `Base64.encodeUrl_injective`, **`Base64.joined_inj`**: octets are known from their text, and from
  two texts with a point between them;
* `Jws.input_inj`, **`Client.SigningInput.inj`**: header and payload are known from what is signed;
* **`Base64.encodeUrl_lossless`**: all of this together.
-/

namespace AcmeClient

namespace Base64

/-- The letters, the digits, the hyphen and the underscore. -/
def IsUrlLetter (c : Char) : Prop :=
  'A' ≤ c ∧ c ≤ 'Z' ∨ 'a' ≤ c ∧ c ≤ 'z' ∨ '0' ≤ c ∧ c ≤ '9' ∨ c = '-' ∨ c = '_'

instance : DecidablePred IsUrlLetter := fun _ => by unfold IsUrlLetter; infer_instance

/-- The letter of the standard alphabet with the value of a letter of the URL alphabet. -/
def standardLetter (c : Char) : Char :=
  if c = '-' then '+' else if c = '_' then '/' else c

/-- A text in the URL alphabet as one in the standard alphabet, filled up with padding to a multiple
of four characters. -/
def standard (s : String) : List Char :=
  s.toList.map standardLetter ++ List.replicate ((4 - s.length % 4) % 4) '='

variable (b : Octets)

theorem toList_encodeUrl : (encodeUrl b).toList = (sextets b).map urlLetter :=
  String.toList_ofList

theorem isUrlLetter_urlLetter : ∀ v < 64, IsUrlLetter (urlLetter v) := by
  decide

theorem isUrlLetter_of_mem : ∀ c ∈ (encodeUrl b).toList, IsUrlLetter c := by
  intro c hc
  rw [toList_encodeUrl] at hc
  obtain ⟨v, hv, rfl⟩ := List.mem_map.mp hc
  exact isUrlLetter_urlLetter v (sextets_lt b v hv)

theorem notMem_encodeUrl {c : Char} (h : ¬ IsUrlLetter c) : c ∉ (encodeUrl b).toList :=
  fun hc => h (isUrlLetter_of_mem b c hc)

theorem length_encodeUrl : (encodeUrl b).length = (4 * b.length + 2) / 3 := by
  rw [← String.length_toList, toList_encodeUrl, List.length_map, length_sextets]

/-! ## The standard alphabet -/

theorem four_dvd_length_standard (s : String) : 4 ∣ (standard s).length := by
  rw [standard, List.length_append, List.length_map, List.length_replicate, String.length_toList]
  omega

theorem standardLetter_urlLetter : ∀ v < 64, standardLetter (urlLetter v) = letter v := by
  decide

/-- **With padding and in the standard alphabet it is the standard text.** -/
theorem standard_encodeUrl : standard (encodeUrl b) = encode b := by
  have letters : (encodeUrl b).toList.map standardLetter = (sextets b).map letter := by
    rw [toList_encodeUrl, List.map_map]
    exact List.map_congr_left fun v hv => standardLetter_urlLetter v (sextets_lt b v hv)
  have pads : (4 - (encodeUrl b).length % 4) % 4 = padding b.length := by
    rw [length_encodeUrl, padding_eq]
  rw [standard, letters, pads, encode]

theorem encodeUrl_injective : Function.Injective encodeUrl := by
  intro a b h
  have read := decodeUrl?_encodeUrl a
  rw [h, decodeUrl?_encodeUrl] at read
  exact (Option.some.inj read).symm

/-- **The point between two texts is found again.** -/
theorem joined_inj {a b a' b' : Octets} :
    encodeUrl a ++ "." ++ encodeUrl b = encodeUrl a' ++ "." ++ encodeUrl b' ↔ a = a' ∧ b = b' := by
  constructor
  · intro h
    have point (x : Octets) : '.' ∉ (encodeUrl x).toList := notMem_encodeUrl x (by decide)
    have same : (encodeUrl a).toList ++ '.' :: (encodeUrl b).toList =
        (encodeUrl a').toList ++ '.' :: (encodeUrl b').toList := by
      simpa using congrArg String.toList h
    obtain ⟨first, -, second⟩ := (List.append_cons_inj_of_notMem (point a) (point b)).mp same
    exact ⟨encodeUrl_injective (String.toList_inj.mp first),
      encodeUrl_injective (String.toList_inj.mp second)⟩
  · rintro ⟨rfl, rfl⟩
    rfl

end Base64

/-! ## What is signed -/

/-- The texts of header and payload are known from what is signed. -/
theorem Jws.input_inj {header payload header' payload' : String} :
    Jws.input header payload = Jws.input header' payload' ↔
      header = header' ∧ payload = payload' := by
  rw [Jws.input, Jws.input, Jws.part, Jws.part, Jws.part, Jws.part, Base64.joined_inj]
  exact and_congr ⟨Utf8.ofString_injective, congrArg _⟩ ⟨Utf8.ofString_injective, congrArg _⟩

namespace Client

/-- What is signed for a protected header and a payload, where null stands for no payload. -/
def SigningInput (header : Members) (payload : Value) (s : String) : Prop :=
  ∃ h p, signedText (.object header) = .ok h ∧ payloadText payload = .ok p ∧ s = Jws.input h p

variable {v w : Value} {s : String}

theorem signedText_ne_empty (hv : v.Jsonlike) : signedText v ≠ .ok "" := by
  intro h
  obtain ⟨t, ht, spells⟩ := Json.exists_spells hv
  obtain ⟨c, u, rfl, -⟩ := spells.opens
  rw [signedText_eq_ok_iff, Json.write?, ht] at h
  simpa using congrArg (Option.map String.toList) h

theorem eq_of_signedText (hv : v.Jsonlike) (hw : w.Jsonlike) (h : signedText v = .ok s)
    (h' : signedText w = .ok s) : v = w :=
  Json.write?_injective hv hw
    ((signedText_eq_ok_iff.mp h).trans (signedText_eq_ok_iff.mp h').symm)

theorem eq_of_payloadText (hv : v.Jsonlike) (hw : w.Jsonlike) (h : payloadText v = .ok s)
    (h' : payloadText w = .ok s) : v = w := by
  unfold payloadText at h h'
  split at h <;> split at h'
  · rfl
  · cases h
    exact absurd h' (signedText_ne_empty hw)
  · cases h'
    exact absurd h (signedText_ne_empty hv)
  · exact eq_of_signedText hv hw h h'

/-- **Header and payload are known from what is signed.** -/
theorem SigningInput.inj {header header' : Members} (signed : SigningInput header v s)
    (signed' : SigningInput header' w s) (hh : (Value.object header).Jsonlike)
    (hh' : (Value.object header').Jsonlike) (hv : v.Jsonlike) (hw : w.Jsonlike) :
    header = header' ∧ v = w := by
  obtain ⟨h, p, text, content, rfl⟩ := signed
  obtain ⟨h', p', text', content', same⟩ := signed'
  obtain ⟨rfl, rfl⟩ := Jws.input_inj.mp same
  exact ⟨Value.object.inj (eq_of_signedText hh hh' text text'),
    eq_of_payloadText hv hw content content'⟩

end Client

namespace Base64

/-- **The URL alphabet without padding loses nothing.** The text for `n` octets has `⌈4n/3⌉` letters
of this alphabet. Filled up with padding it is read back in the standard alphabet, by the strict
reader and by the lenient one, and the strict reader of the URL alphabet takes no other text for the
octets. So octets are known from their text, which has none of the characters that stand for
something else; the texts of header and payload are known from what is signed, and so are these
themselves where they have no fractions. -/
theorem encodeUrl_lossless :
    (∀ b : Octets, (∀ c ∈ (encodeUrl b).toList, IsUrlLetter c) ∧
      (encodeUrl b).length = (4 * b.length + 2) / 3 ∧
      4 ∣ (standard (encodeUrl b)).length ∧
      decode? (standard (encodeUrl b)) = some b ∧
      decodeLenient? (standard (encodeUrl b)) = some b ∧
      ∀ s, decodeUrl? s = some b ↔ s = encodeUrl b) ∧
    Function.Injective encodeUrl ∧
    (∀ b, ∀ c ∈ ['=', '+', '/', '.'], c ∉ (encodeUrl b).toList) ∧
    (∀ header payload header' payload' : String,
      Jws.input header payload = Jws.input header' payload' ↔
        header = header' ∧ payload = payload') ∧
    ∀ (header header' : Members) (payload payload' : Value) (s : String),
      Client.SigningInput header payload s → Client.SigningInput header' payload' s →
      (Value.object header).Jsonlike → (Value.object header').Jsonlike →
      payload.Jsonlike → payload'.Jsonlike → header = header' ∧ payload = payload' := by
  refine ⟨fun b => ⟨isUrlLetter_of_mem b, length_encodeUrl b, four_dvd_length_standard _, ?_, ?_,
    fun s => decodeUrl?_eq_some_iff⟩, encodeUrl_injective, fun b c hc => ?_,
    fun _ _ _ _ => Jws.input_inj, fun _ _ _ _ _ => Client.SigningInput.inj⟩
  · rw [standard_encodeUrl]
    exact decode?_encode b
  · rw [standard_encodeUrl]
    exact decodeLenient?_encode b
  · simp only [List.mem_cons, List.not_mem_nil, or_false] at hc
    rcases hc with rfl | rfl | rfl | rfl
    all_goals exact notMem_encodeUrl b (by decide)

/-- Two octets with a letter of the URL alphabet alone, and a request without payload. -/
theorem encodeUrl_lossless_request :
    let header : Members := [("alg", .text "ES256"), ("nonce", .text "n"), ("url", .text "u:c")]
    ('-' ∈ (encodeUrl [0xfb, 0xff]).toList ∧ IsUrlLetter '-') ∧
      '=' ∉ (encodeUrl [0xfb, 0xff]).toList ∧
      ∃ s, Client.SigningInput header .null s ∧ (Value.object header).Jsonlike ∧
        ∀ payload : Value, payload.Jsonlike → Client.SigningInput header payload s →
          payload = .null := by
  intro header
  obtain ⟨texts, -, special, -, signed⟩ := encodeUrl_lossless
  have hyphen : '-' ∈ (encodeUrl [0xfb, 0xff]).toList := by
    rw [toList_encodeUrl]
    decide
  have jsonlike : (Value.object header).Jsonlike := by
    refine .object _ (by decide) ?_
    simp only [header, List.mem_cons, List.not_mem_nil, or_false]
    rintro _ (rfl | rfl | rfl)
    all_goals exact .text _
  obtain ⟨t, ht, -⟩ := Json.exists_spells jsonlike
  have input : Client.SigningInput header .null (Jws.input (String.ofList t) "") := by
    refine ⟨_, _, Client.signedText_eq_ok_iff.mpr ?_, rfl, rfl⟩
    rw [Json.write?, ht]
    rfl
  refine ⟨⟨hyphen, (texts _).1 '-' hyphen⟩, special _ '=' List.mem_cons_self, _, input, jsonlike,
    fun payload hp other => ?_⟩
  exact (signed header header payload .null _ other input jsonlike jsonlike hp .null).2

end Base64

end AcmeClient
