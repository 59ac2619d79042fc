import AcmeClient.Proofs.Der.Lenient
import AcmeClient.X509.Document

/-!
# Where the parts of a certificate are

* `Der.Reader.Takes`: a reader takes one element and gives something that is told by it;
* `X509.takes_within` and its like: the readers of the parts of a certificate;
* `X509.Leads`: rows of elements;
* **`X509.leads_of_bodyFields`**, **`X509.leads_of_keyFields`**: the elements that the name and the
  key of the subject are taken from;
* **`X509.infix_of_read?`**: both stand in the certificate as they are.
-/

namespace AcmeClient

namespace Der.Reader

variable {α β : Type} {x : Reader α} {f : α → Reader β} {P : Element → α → Prop}
  {Q : α → β → Prop} {b r : Octets} {y : β} {t : Tag}

theorem bind_eq_some_iff :
    (x >>= f) b = some (y, r) ↔ ∃ a c, x b = some (a, c) ∧ f a c = some (y, r) := by
  change (x b).bind (fun p => f p.1 p.2) = _ ↔ _
  rw [Option.bind_eq_some_iff]
  constructor
  · rintro ⟨⟨a, c⟩, hx, hf⟩
    exact ⟨a, c, hx, hf⟩
  · rintro ⟨a, c, hx, hf⟩
    exact ⟨(a, c), hx, hf⟩

/-- The reader takes one element `e` and gives something `a` with `P e a`. -/
def Takes (x : Reader α) (P : Element → α → Prop) : Prop :=
  ∀ b a r, x b = some (a, r) → ∃ e, readElement? b = some (e, r) ∧ P e a

/-- The reader takes nothing and gives something `a` with `p a`. -/
def Waits (x : Reader α) (p : α → Prop) : Prop :=
  ∀ b a r, x b = some (a, r) → r = b ∧ p a

theorem Takes.bind (hx : Takes x P) (hf : ∀ a, Waits (f a) (Q a)) :
    Takes (x >>= f) fun e y => ∃ a, P e a ∧ Q a y := by
  intro b y r h
  obtain ⟨a, c, ha, hy⟩ := bind_eq_some_iff.mp h
  obtain ⟨e, he, hp⟩ := hx b a c ha
  obtain ⟨rfl, hq⟩ := hf a c y r hy
  exact ⟨e, he, a, hp, hq⟩

theorem Takes.imp {P' : Element → α → Prop} (hx : Takes x P) (h : ∀ e a, P e a → P' e a) :
    Takes x P' := fun b a r hr =>
  (hx b a r hr).imp fun e he => ⟨he.1, h e a he.2⟩

theorem waits_pure (a : α) : Waits (pure a) fun a' => a' = a := by
  intro b a' r h
  cases h
  exact ⟨rfl, rfl⟩

theorem waits_failure (p : α → Prop) : Waits failure p :=
  fun _ _ _ h => nomatch h

theorem waits_require_bind (p : Bool) {q : β → Prop} {z : Reader β} (hz : Waits z q) :
    Waits (require p >>= fun _ => z) fun y => p = true ∧ q y := by
  intro b y r h
  obtain ⟨⟨⟩, c, hr, hy⟩ := bind_eq_some_iff.mp h
  rw [require] at hr
  split at hr
  case isTrue hp =>
    cases hr
    obtain ⟨same, hq⟩ := hz b y r hy
    exact ⟨same, hp, hq⟩
  case isFalse => cases hr

theorem takes_tagged (t : Tag) : Takes (tagged t) fun e e' => e.tag = t ∧ e' = e := by
  intro b c r h
  rw [tagged] at h
  cases he : readElement? b with
  | none =>
    rw [he] at h
    cases h
  | some p =>
    rw [he] at h
    dsimp only at h
    split at h
    case isTrue ht =>
      cases h
      exact ⟨p.1, rfl, ht, rfl⟩
    case isFalse => cases h

theorem content_eq (t : Tag) : content t = tagged t >>= fun e => pure e.content := by
  funext b
  change content t b = (tagged t b).bind fun p => some (p.1.content, p.2)
  unfold content tagged
  cases readElement? b with
  | none => rfl
  | some p =>
    dsimp only
    split <;> rfl

theorem takes_content (t : Tag) : Takes (content t) fun e c => e.tag = t ∧ c = e.content := by
  rw [content_eq]
  refine ((takes_tagged t).bind fun e => waits_pure e.content).imp ?_
  rintro e c ⟨_, ⟨ht, rfl⟩, hc⟩
  exact ⟨ht, hc⟩

theorem optional_cases (hx : Takes x P) {o : Option α} (h : optional t x b = some (o, r)) :
    r = b ∨ ∃ e a, readElement? b = some (e, r) ∧ P e a := by
  obtain ⟨tag, c, hp, h⟩ := bind_eq_some_iff.mp h
  cases hp
  split at h
  case isTrue =>
    obtain ⟨a, c, ha, h⟩ := bind_eq_some_iff.mp h
    cases h
    obtain ⟨e, he, hp⟩ := hx b a r ha
    exact .inr ⟨e, a, he, hp⟩
  case isFalse =>
    cases h
    exact .inl rfl

theorem eq_of_readWhole? {a : α} (h : readWhole? x b = some a) : x b = some (a, []) := by
  rw [readWhole?] at h
  split at h
  case h_1 heq =>
    cases h
    exact heq
  case h_2 => cases h

end Der.Reader

namespace X509

open Der.Reader

variable {α : Type} {x : Der.Reader α} {b r : Octets} {d : Document}

/-! ## Single parts -/

theorem takes_within (t : Der.Tag) (x : Der.Reader α) :
    Takes (within t x) fun e a => e.tag = t ∧ x e.content = some (a, []) := by
  refine ((takes_content t).bind (Q := fun c a => x c = some (a, [])) fun c => ?_).imp ?_
  · cases h : Der.readWhole? x c with
    | none => exact waits_failure _
    | some a =>
      intro b a' r hr
      obtain ⟨rfl, rfl⟩ := waits_pure a b a' r hr
      exact ⟨rfl, eq_of_readWhole? h⟩
  · rintro e a ⟨c, ⟨ht, rfl⟩, hc⟩
    exact ⟨ht, hc⟩

theorem takes_verbatim (t : Der.Tag) (p : Octets → Bool) :
    Takes (verbatim t p) fun e o => e.tag = t ∧ o = e.octets := by
  refine ((takes_tagged t).bind fun e => waits_require_bind _ (waits_pure e.octets)).imp ?_
  rintro e o ⟨_, ⟨ht, rfl⟩, -, ho⟩
  exact ⟨ht, ho⟩

theorem takes_integer : Takes integer fun e _ => e.tag = Der.Tag.integer := by
  refine ((takes_content Der.Tag.integer).bind (Q := fun _ _ => True) fun c => ?_).imp ?_
  · cases Der.integer? c with
    | none => exact waits_failure _
    | some n => exact fun b a r h => ⟨(waits_pure n b a r h).1, trivial⟩
  · rintro e n ⟨c, ⟨ht, -⟩, -⟩
    exact ht

theorem algorithm_eq : algorithm = within Der.Tag.sequence algorithmFields := by
  refine congrArg (content Der.Tag.sequence >>= ·) (funext fun c => ?_)
  cases Der.readWhole? algorithmFields c <;> rfl

theorem takes_algorithm : Takes algorithm fun e a =>
    e.tag = Der.Tag.sequence ∧ algorithmFields e.content = some (a, []) := by
  rw [algorithm_eq]
  exact takes_within Der.Tag.sequence algorithmFields

theorem takes_bitString (t : Der.Tag) : Takes (bitString t) fun e k =>
    e.tag = t ∧ isBits e.content = true ∧ k = e.content.drop 1 := by
  refine ((takes_content t).bind fun c => waits_require_bind _ (waits_pure (c.drop 1))).imp ?_
  rintro e k ⟨c, ⟨ht, rfl⟩, bits, hk⟩
  exact ⟨ht, bits, hk⟩

/-! ## Rows of elements -/

/-- Octets start with some elements, behind which `r` follows. -/
inductive Leads : Octets → List Der.Element → Octets → Prop
  | nil (r : Octets) : Leads r [] r
  | cons {b c r : Octets} {e : Der.Element} {es : List Der.Element}
      (first : Der.readElement? b = some (e, c)) (rest : Leads c es r) : Leads b (e :: es) r

theorem Leads.parts {es : List Der.Element} {ps : List Lenient.Element} (h : Leads b es r)
    (parts : Lenient.Parts b ps) : ∃ rest, ps = es.map Lenient.ofStrict ++ rest := by
  induction h generalizing ps with
  | nil => exact ⟨ps, rfl⟩
  | cons first _ ih =>
    obtain ⟨ps, rfl, later⟩ := parts.of_strict first
    obtain ⟨rest, rfl⟩ := ih later
    exact ⟨rest, rfl⟩

theorem Leads.infix_of_mem {es : List Der.Element} (h : Leads b es r) {e : Der.Element}
    (he : e ∈ es) : e.octets <:+: b := by
  induction h with
  | nil => cases he
  | cons first _ ih =>
    have split := (Der.split_of_readElement? first).1
    rcases List.mem_cons.mp he with rfl | he
    · rw [split]
      exact (List.prefix_append _ _).isInfix
    · rw [split]
      exact (ih he).trans (List.suffix_append _ _).isInfix

theorem Leads.read_of_mem {es : List Der.Element} (h : Leads b es r) {e : Der.Element}
    (he : e ∈ es) : ∃ c c', Der.readElement? c = some (e, c') := by
  induction h with
  | nil => cases he
  | cons first _ ih =>
    rcases List.mem_cons.mp he with rfl | he
    · exact ⟨_, _, first⟩
    · exact ih he

/-- The elements of a key description, from which the key is taken. -/
theorem leads_of_keyFields {a : Algorithm} {k : Octets} (h : keyFields b = some ((a, k), r)) :
    ∃ algorithm key, Leads b [algorithm, key] r ∧
      (algorithm.tag = Der.Tag.sequence ∧ algorithmFields algorithm.content = some (a, [])) ∧
      key.tag = Der.Tag.bitString ∧ isBits key.content = true ∧ k = key.content.drop 1 := by
  obtain ⟨a', c, ha, h⟩ := bind_eq_some_iff.mp h
  obtain ⟨k', c', hk, h⟩ := bind_eq_some_iff.mp h
  cases h
  obtain ⟨algorithm, first, ta⟩ := takes_algorithm b a c ha
  obtain ⟨key, second, tk, bits, hk⟩ := takes_bitString _ c k r hk
  exact ⟨algorithm, key, .cons first (.cons second (.nil r)), ta, tk, bits, hk⟩

/-- The elements of the signed part up to the public key. -/
theorem leads_of_bodyFields (h : bodyFields b = some (d, r)) :
    ∃ version serial algorithm issuer validity subject info c,
      Leads b (version ++ [serial, algorithm, issuer, validity, subject, info]) c ∧
      (version = [] ∨ ∃ v, version = [v] ∧ v.tag = Der.Tag.explicit 0) ∧
      serial.tag = Der.Tag.integer ∧
      subject.tag = Der.Tag.sequence ∧ subject.octets = d.subject ∧
      info.tag = Der.Tag.sequence ∧
      keyFields info.content = some ((d.keyAlgorithm, d.key), []) := by
  obtain ⟨version?, c₀, hversion, h⟩ := bind_eq_some_iff.mp h
  obtain ⟨n, c₁, hserial, h⟩ := bind_eq_some_iff.mp h
  obtain ⟨a, c₂, halgorithm, h⟩ := bind_eq_some_iff.mp h
  obtain ⟨i, c₃, hissuer, h⟩ := bind_eq_some_iff.mp h
  obtain ⟨_, c₄, hvalidity, h⟩ := bind_eq_some_iff.mp h
  obtain ⟨s, c₅, hsubject, h⟩ := bind_eq_some_iff.mp h
  obtain ⟨⟨ka, k⟩, c₆, hinfo, h⟩ := bind_eq_some_iff.mp h
  dsimp only at h
  obtain ⟨_, c₇, -, h⟩ := bind_eq_some_iff.mp h
  obtain ⟨_, c₈, -, h⟩ := bind_eq_some_iff.mp h
  obtain ⟨_, c₉, -, h⟩ := bind_eq_some_iff.mp h
  cases h
  obtain ⟨serial, e₁, t₁⟩ := takes_integer c₀ n c₁ hserial
  obtain ⟨algorithm, e₂, -⟩ := takes_algorithm c₁ a c₂ halgorithm
  obtain ⟨issuer, e₃, -⟩ := takes_verbatim _ _ c₂ i c₃ hissuer
  obtain ⟨validity, e₄, -⟩ := takes_within _ _ c₃ _ c₄ hvalidity
  obtain ⟨subject, e₅, t₅, octets⟩ := takes_verbatim _ _ c₄ s c₅ hsubject
  obtain ⟨info, e₆, t₆, key⟩ := takes_within _ _ c₅ (ka, k) c₆ hinfo
  have fields : Leads c₀ [serial, algorithm, issuer, validity, subject, info] c₆ :=
    .cons e₁ (.cons e₂ (.cons e₃ (.cons e₄ (.cons e₅ (.cons e₆ (.nil c₆))))))
  rcases optional_cases (takes_within _ _) hversion with rfl | ⟨v, _, e₀, t₀, -⟩
  · exact ⟨[], serial, algorithm, issuer, validity, subject, info, c₆, fields, .inl rfl, t₁, t₅,
      octets.symm, t₆, key⟩
  · exact ⟨[v], serial, algorithm, issuer, validity, subject, info, c₆, .cons e₀ fields,
      .inr ⟨v, rfl, t₀⟩, t₁, t₅, octets.symm, t₆, key⟩

theorem leads_of_certificateFields (h : certificateFields b = some (d, r)) :
    ∃ body algorithm signature, Leads b [body, algorithm, signature] r ∧
      body.tag = Der.Tag.sequence ∧ bodyFields body.content = some (d, []) := by
  obtain ⟨d', c₁, hbody, h⟩ := bind_eq_some_iff.mp h
  obtain ⟨a, c₂, halgorithm, h⟩ := bind_eq_some_iff.mp h
  obtain ⟨k, c₃, hsignature, h⟩ := bind_eq_some_iff.mp h
  cases h
  obtain ⟨body, e₁, t₁, fields⟩ := takes_within _ _ b d c₁ hbody
  obtain ⟨algorithm, e₂, -⟩ := takes_algorithm c₁ a c₂ halgorithm
  obtain ⟨signature, e₃, -⟩ := takes_bitString _ c₂ k r hsignature
  exact ⟨body, algorithm, signature, .cons e₁ (.cons e₂ (.cons e₃ (.nil r))), t₁, fields⟩

theorem read?_of_read (h : read b = .ok d) : read? b = some d := by
  rw [read] at h
  cases hd : read? b with
  | none =>
    rw [hd] at h
    cases h
  | some d' =>
    rw [hd] at h
    dsimp only at h
    split at h
    · rw [Except.ok.inj h]
    · cases h

theorem element_of_read? (h : read? b = some d) : ∃ e, Der.readElement? b = some (e, []) ∧
    e.tag = Der.Tag.sequence ∧ certificateFields e.content = some (d, []) :=
  takes_within _ _ b d [] (eq_of_readWhole? h)

/-- **Name and key of the subject stand in the certificate as they are.** -/
theorem infix_of_read? (h : read? b = some d) : d.subject <:+: b ∧ d.key <:+: b := by
  have inner {c : Octets} {es : List Der.Element} {r : Octets} (leads : Leads c es r)
      {e : Der.Element} (he : e ∈ es) : e.content <:+: c := by
    have octets := leads.infix_of_mem he
    obtain ⟨c', r', first⟩ := leads.read_of_mem he
    exact (Der.split_of_readElement? first).2.isInfix.trans octets
  obtain ⟨e, first, -, fields⟩ := element_of_read? h
  obtain ⟨body, a, s, leads, -, bodyFields⟩ := leads_of_certificateFields fields
  obtain ⟨version, serial, algorithm, issuer, validity, subject, info, c, leads', -, -, -, name, -,
    keyFields⟩ := leads_of_bodyFields bodyFields
  obtain ⟨algorithm', key, leads'', -, -, -, bits⟩ := leads_of_keyFields keyFields
  have whole : e.content <:+: b := inner (.cons first (.nil [])) (List.mem_singleton.mpr rfl)
  have signed : body.content <:+: b := (inner leads List.mem_cons_self).trans whole
  constructor
  · rw [← name]
    exact (leads'.infix_of_mem (by simp)).trans signed
  · have described : info.content <:+: b := (inner leads' (by simp)).trans signed
    rw [bits]
    exact ((List.drop_suffix 1 _).isInfix.trans (inner leads'' (by simp))).trans described

end X509

end AcmeClient
