import AcmeClient.Proofs.X509.Reading

/-!
# Certificates are rows of elements throughout

What the strict reader accepts consists of elements down to the key of the subject, with nothing
between them and nothing behind them.

* `X509.Covers`: a reader takes a row of elements;
* `X509.covers_parameters`, `X509.covers_bodyFields`: so do the readers of the parts of a
  certificate;
* **`X509.children?_of_leads`**: the lenient reader finds the elements of such a row;
* `X509.Layout`, **`X509.exists_layout`**: where name and key of the subject are.
-/

namespace AcmeClient

namespace X509

open Der.Reader

variable {α β : Type} {x : Der.Reader α} {f : α → Der.Reader β} {P : Der.Element → α → Prop}
  {p : α → Prop} {b c r : Octets} {es fs : List Der.Element} {d : Document}

/-! ## Rows -/

theorem Leads.append (h : Leads b es c) (h' : Leads c fs r) : Leads b (es ++ fs) r := by
  induction h with
  | nil => exact h'
  | cons first _ ih => exact .cons first (ih h')

/-- A row up to the end goes on where a shorter row ends. -/
theorem Leads.split (h : Leads b fs c) (whole : Leads b es []) :
    ∃ rest, es = fs ++ rest ∧ Leads c rest [] := by
  induction h generalizing es with
  | nil => exact ⟨es, rfl, whole⟩
  | cons first _ ih =>
    cases whole with
    | nil => cases first
    | cons first' rest =>
      rw [first] at first'
      cases first'
      obtain ⟨rest', rfl, later⟩ := ih rest
      exact ⟨rest', rfl, later⟩

theorem length_lt_of_readLength? {n : Nat} (h : Der.readLength? b = some (n, r)) :
    r.length < b.length := by
  cases b with
  | nil => cases h
  | cons y b =>
    rw [Der.readLength?] at h
    dsimp only at h
    split at h
    · cases h
      exact Nat.lt_succ_self _
    · split at h
      · cases h
      · split at h
        · cases h
        · obtain ⟨-, rfl⟩ := Prod.mk.inj (Option.some.inj h)
          rw [List.length_drop, List.length_cons]
          omega

theorem length_lt_of_readElement? {e : Der.Element} (h : Der.readElement? b = some (e, r)) :
    r.length < b.length := by
  obtain ⟨c, n, d, ht, hn, -, -, -, rfl⟩ := Der.cases_of_readElement? h
  have tag := (Der.suffix_of_readTag? ht).length_le
  have length := length_lt_of_readLength? hn
  rw [List.length_drop]
  omega

theorem Leads.length_le (h : Leads b es r) : es.length ≤ b.length := by
  induction h with
  | nil => exact Nat.zero_le _
  | cons first _ ih =>
    have := length_lt_of_readElement? first
    rw [List.length_cons]
    omega

theorem childrenWithin?_of_leads (h : Leads b es []) {n : Nat} (hn : es.length ≤ n) :
    Lenient.childrenWithin? n b = some (es.map Lenient.ofStrict) := by
  generalize hr : ([] : Octets) = r at h
  induction h generalizing n with
  | nil =>
    subst hr
    cases n <;> rfl
  | cons first _ ih =>
    obtain ⟨n, rfl⟩ := Nat.exists_eq_add_of_le' (Nat.le_of_add_left_le hn)
    rw [Lenient.childrenWithin?_of_readElement? (Lenient.readElement?_of_strict first),
      ih (Nat.le_of_succ_le_succ hn) hr]
    rfl

/-- **The lenient reader finds the elements of a row.** -/
theorem children?_of_leads (h : Leads b es []) :
    Lenient.children? b = some (es.map Lenient.ofStrict) :=
  childrenWithin?_of_leads h h.length_le

theorem within?_of_leads {e : Der.Element} {t : Der.Tag} (tag : e.tag = t)
    (h : Leads e.content es []) :
    (Lenient.ofStrict e).within? t = some (es.map Lenient.ofStrict) :=
  (if_pos tag).trans (children?_of_leads h)

/-! ## Readers that take rows -/

/-- The reader takes a row of elements. -/
def Covers (x : Der.Reader α) : Prop :=
  ∀ b a r, x b = some (a, r) → ∃ es, Leads b es r

theorem covers_of_takes (h : Takes x P) : Covers x := by
  intro b a r hx
  obtain ⟨e, he, -⟩ := h b a r hx
  exact ⟨[e], .cons he (.nil r)⟩

theorem covers_of_waits (h : Waits x p) : Covers x := by
  intro b a r hx
  obtain ⟨rfl, -⟩ := h b a r hx
  exact ⟨[], .nil r⟩

theorem Covers.bind (hx : Covers x) (hf : ∀ a, Covers (f a)) : Covers (x >>= f) := by
  intro b y r h
  obtain ⟨a, c, ha, hy⟩ := bind_eq_some_iff.mp h
  obtain ⟨es, front⟩ := hx b a c ha
  obtain ⟨fs, back⟩ := hf a c y r hy
  exact ⟨es ++ fs, front.append back⟩

theorem covers_pure (a : α) : Covers (pure a) :=
  covers_of_waits (waits_pure a)

theorem covers_failure : Covers (failure : Der.Reader α) :=
  covers_of_waits (waits_failure fun _ => True)

theorem covers_peek : Covers peek := by
  intro b t r h
  cases h
  exact ⟨[], .nil b⟩

theorem covers_any : Covers any := by
  intro b e r h
  exact ⟨[e], .cons h (.nil r)⟩

theorem covers_content (t : Der.Tag) : Covers (content t) :=
  covers_of_takes (takes_content t)

theorem covers_require (q : Bool) : Covers (require q) := by
  intro b a r h
  rw [require] at h
  split at h
  · cases h
    exact ⟨[], .nil b⟩
  · cases h

theorem covers_optional (t : Der.Tag) (hx : Covers x) : Covers (optional t x) := by
  refine covers_peek.bind fun found => ?_
  split
  · exact hx.bind fun a => covers_pure (some a)
  · exact covers_pure none

theorem covers_within (t : Der.Tag) (x : Der.Reader α) : Covers (within t x) :=
  covers_of_takes (takes_within t x)

theorem covers_objectId : Covers objectId :=
  (covers_content _).bind fun c => (covers_require _).bind fun _ => covers_pure c

theorem covers_parameters (rule : Parameters) : Covers (parameters rule) := by
  have null : Covers null := (covers_content _).bind fun c => covers_require c.isEmpty
  cases rule with
  | absent => exact covers_pure ()
  | nullable => exact (covers_optional _ null).bind fun _ => covers_pure ()
  | curve =>
    refine Covers.bind (covers_peek.bind fun found => ?_) fun _ => covers_pure ()
    split
    · split_ifs
      · exact covers_objectId.bind fun c => covers_pure (some c)
      · exact null.bind fun _ => covers_pure none
      · exact (covers_content _).bind fun _ => covers_pure none
    · exact covers_failure
  | threeNumbers =>
    refine (covers_content _).bind fun c => ?_
    split
    · exact covers_pure ()
    · exact covers_failure
  | free =>
    refine covers_peek.bind fun found => ?_
    split
    · exact covers_pure ()
    · exact covers_any.bind fun _ => covers_pure ()

theorem covers_bodyFields : Covers bodyFields := by
  have algorithm : Covers algorithm := covers_of_takes takes_algorithm
  have name : Covers name := covers_of_takes (takes_verbatim _ _)
  have bits (t : Der.Tag) : Covers (bitString t) := covers_of_takes (takes_bitString t)
  refine (covers_optional _ (covers_within _ _)).bind fun version => ?_
  refine (covers_of_takes takes_integer).bind fun serial => algorithm.bind fun _ => ?_
  refine name.bind fun issuer => (covers_within _ _).bind fun _ => name.bind fun subject => ?_
  refine (covers_within _ _).bind fun ⟨keyAlgorithm, key⟩ => ?_
  refine (covers_optional _ (bits _)).bind fun _ => (covers_optional _ (bits _)).bind fun _ => ?_
  exact (covers_optional _ (covers_within _ _)).bind fun _ => covers_pure _

/-- An algorithm identifier starts with the object identifier, and is a row. -/
theorem leads_of_algorithmFields {a : Algorithm} (h : algorithmFields b = some (a, [])) :
    ∃ id rest, Leads b (id :: rest) [] ∧ id.tag = Der.Tag.objectId ∧ id.content = a.id := by
  obtain ⟨i, c, hi, h⟩ := bind_eq_some_iff.mp h
  obtain ⟨s, c', hs, h⟩ := bind_eq_some_iff.mp h
  cases hs
  obtain ⟨_, c', hp, h⟩ := bind_eq_some_iff.mp h
  cases h
  obtain ⟨rest, row⟩ := covers_parameters _ c _ [] hp
  obtain ⟨content, c₀, hc, hi⟩ := bind_eq_some_iff.mp hi
  obtain ⟨id, first, tag, rfl⟩ := takes_content _ b content c₀ hc
  obtain ⟨rfl, -, rfl⟩ := waits_require_bind _ (waits_pure id.content) c₀ i c hi
  exact ⟨id, rest, .cons first row, tag, rfl⟩

/-! ## Name and key -/

/-- The elements of a certificate down to the name and the key of its subject. -/
structure Layout (b : Octets) (d : Document) where
  whole : Der.Element
  body : Der.Element
  signatureAlgorithm : Der.Element
  signature : Der.Element
  /-- The version, if it is written. -/
  version : List Der.Element
  serial : Der.Element
  algorithm : Der.Element
  issuer : Der.Element
  validity : Der.Element
  subject : Der.Element
  info : Der.Element
  /-- What follows the description of the key. -/
  others : List Der.Element
  keyAlgorithm : Der.Element
  key : Der.Element
  id : Der.Element
  parameters : List Der.Element
  /-- The count of bits at the end of the key that are not used. -/
  unused : UInt8
  read_whole : Der.readElement? b = some (whole, [])
  tag_whole : whole.tag = Der.Tag.sequence
  leads_whole : Leads whole.content [body, signatureAlgorithm, signature] []
  tag_body : body.tag = Der.Tag.sequence
  leads_body : Leads body.content
    (version ++ [serial, algorithm, issuer, validity, subject, info] ++ others) []
  version_cases : version = [] ∨ ∃ v, version = [v] ∧ v.tag = Der.Tag.explicit 0
  tag_serial : serial.tag = Der.Tag.integer
  tag_subject : subject.tag = Der.Tag.sequence
  octets_subject : subject.octets = d.subject
  tag_info : info.tag = Der.Tag.sequence
  leads_info : Leads info.content [keyAlgorithm, key] []
  tag_keyAlgorithm : keyAlgorithm.tag = Der.Tag.sequence
  leads_keyAlgorithm : Leads keyAlgorithm.content (id :: parameters) []
  tag_id : id.tag = Der.Tag.objectId
  content_id : id.content = d.keyAlgorithm.id
  tag_key : key.tag = Der.Tag.bitString
  content_key : key.content = unused :: d.key
  isBits_key : isBits key.content = true

/-- **The strict reader tells where name and key of the subject are.** -/
theorem exists_layout (h : read? b = some d) : Nonempty (Layout b d) := by
  obtain ⟨whole, read_whole, tag_whole, fields⟩ := element_of_read? h
  obtain ⟨body, signatureAlgorithm, signature, leads_whole, tag_body, fields⟩ :=
    leads_of_certificateFields fields
  obtain ⟨es, row⟩ := covers_bodyFields _ d [] fields
  obtain ⟨version, serial, algorithm, issuer, validity, subject, info, c, front, version_cases,
    tag_serial, tag_subject, octets_subject, tag_info, keyFields⟩ := leads_of_bodyFields fields
  obtain ⟨others, rfl, -⟩ := front.split row
  obtain ⟨keyAlgorithm, key, leads_info, ⟨tag_keyAlgorithm, idFields⟩, tag_key, isBits_key, bits⟩ :=
    leads_of_keyFields keyFields
  obtain ⟨id, parameters, leads_keyAlgorithm, tag_id, content_id⟩ := leads_of_algorithmFields idFields
  obtain ⟨unused, content_key⟩ : ∃ unused, key.content = unused :: d.key := by
    cases content : key.content with
    | nil =>
      rw [content] at isBits_key
      cases isBits_key
    | cons u r =>
      rw [content] at bits
      exact ⟨u, by rw [bits]; rfl⟩
  exact ⟨⟨whole, body, signatureAlgorithm, signature, version, serial, algorithm, issuer, validity,
    subject, info, others, keyAlgorithm, key, id, parameters, unused, read_whole, tag_whole,
    leads_whole, tag_body, row, version_cases, tag_serial, tag_subject, octets_subject, tag_info,
    leads_info, tag_keyAlgorithm, leads_keyAlgorithm, tag_id, content_id, tag_key, content_key,
    isBits_key⟩⟩

end X509

end AcmeClient
