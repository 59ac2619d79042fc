import AcmeClient.Headers
import AcmeClient.Url

/-!
# Links in headers

RFC 8288: a link is a target in angle brackets with parameters, each behind a semicolon; links are
separated by commas. The parameter `rel` holds the relations of a link.

* `Link`, `Link.readAll`: the links of a header value;
* `Link.relations`: the relations of a link;
* `Link.targets`: the targets of the links with a relation, in the order in which they were sent.
-/

namespace AcmeClient

/-- A link. -/
structure Link where
  target : List Char
  /-- The parameters from the first semicolon on. -/
  params : List Char
deriving DecidableEq, Inhabited

namespace Link

/-- The first link of a text, and the rest. Parameters end at the next comma. -/
def read? (s : List Char) : Option (Link × List Char) :=
  match s.dropWhile (· ≠ '<') with
  | [] => none
  | _ :: r =>
    match r.dropWhile (· ≠ '>') with
    | [] => none
    | _ :: rest =>
      let rest := rest.dropWhile Char.isBlank
      if rest.head? = some ';' then
        some (⟨r.takeWhile (· ≠ '>'), rest.takeWhile (· ≠ ',')⟩, rest.dropWhile (· ≠ ','))
      else some (⟨r.takeWhile (· ≠ '>'), []⟩, rest)

/-- The links of a text, at most `n` of them. -/
def readWithin : Nat → List Char → List Link
  | 0, _ => []
  | n + 1, s =>
    match read? s with
    | none => []
    | some (l, r) => l :: readWithin n r

/-- The links of a text. -/
def readAll (s : List Char) : List Link :=
  readWithin s.length s

/-! ## Relations -/

/-- The rest of a text without a quote at its start. -/
def dropQuote (s : List Char) : List Char :=
  if s.head? = some '"' then s.drop 1 else s

/-- The value of the parameter `rel` behind a semicolon, and the rest. -/
def relValue? (s : List Char) : Option (List Char × List Char) := do
  let s ← Text.after? "rel".toList (s.dropWhile Char.isBlank)
  let s ← Text.after? ['='] (s.dropWhile Char.isBlank)
  let s := dropQuote (s.dropWhile Char.isBlank)
  let inside := fun (c : Char) => c ≠ '"' ∧ c ≠ ';'
  some (s.takeWhile fun c => inside c, dropQuote (s.dropWhile fun c => inside c))

/-- The values of all parameters `rel`, with at most `n` steps. -/
def relValuesWithin : Nat → List Char → List (List Char)
  | 0, _ => []
  | _ + 1, [] => []
  | n + 1, c :: s =>
    if c = ';' then
      match relValue? s with
      | some (v, r) => v :: relValuesWithin n r
      | none => relValuesWithin n s
    else relValuesWithin n s

/-- The relations of a link. -/
def relations (l : Link) : List (List Char) :=
  (relValuesWithin l.params.length l.params).flatMap Text.words

/-- The targets of the links in a header value with a relation. -/
def targetsOf (relation s : List Char) : List (List Char) :=
  ((readAll s).filter fun l => l.relations.contains relation).map (·.target)

/-- The target of a link relative to a base, as it is if the base is empty. -/
def resolve (base target : List Char) : Except Error (List Char) :=
  if base.isEmpty then .ok target else Url.join base target

/-- The text of a header value. -/
def valueText : Value → Except Error (List Char)
  | .text s => .ok s.toList
  | _ => .error (.plain .wrongType "not a text")

/-- The targets of the links with a relation in several header values, resolved against a base. -/
def targetsIn (relation base : List Char) : List Value → Except Error (List (List Char))
  | [] => .ok []
  | v :: vs => do
    let s ← valueText v
    let ts ← (targetsOf relation s).mapM (resolve base)
    let rest ← targetsIn relation base vs
    .ok (ts ++ rest)

/-- The targets of the links with a relation, in the order in which they were sent. -/
def targets (h : Headers) (relation base : String) : Except Error (List String) := do
  let ts ← targetsIn relation.toList base.toList (h.all "Link")
  .ok (ts.map String.ofList)

end Link

end AcmeClient
