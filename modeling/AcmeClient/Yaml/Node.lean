import AcmeClient.Yaml.Token

/-!
# Nodes

The tree of a YAML document: scalars, sequences and mappings with their tags. An alias stands for
the node with its anchor; one that lies within that node closes a cycle.

* `Yaml.Node`: the nodes;
* `Yaml.Tag`: how a node came by its tag;
* `Yaml.Node.ofTokens?`: the node of a text with at most one document.
-/

namespace AcmeClient

namespace Yaml

/-- The tag of a node. -/
inductive Tag where
  /-- The tag follows from the text of a plain scalar and from the kind of other nodes. -/
  | implicit
  /-- The tag follows from the kind of the node. -/
  | byKind
  | named (name : String)
deriving DecidableEq, Inhabited

/-- The nodes of a document. -/
inductive Node where
  | scalar (tag : Tag) (text : List Char)
  | sequence (tag : Tag) (items : List Node)
  | mapping (tag : Tag) (pairs : List (Node × Node))
  /-- An alias for a node that it lies within. -/
  | cycle
deriving Inhabited

namespace Node

/-- The node that is not written. -/
def empty : Node :=
  .scalar .implicit []

/-- What is left of the tokens, and what the document has named so far. -/
structure State where
  tokens : List Token
  /-- The nodes with anchors; those that are not complete have no node yet. -/
  anchors : List (List Char × Option Node)
  /-- The tag handles. -/
  handles : List (List Char × List Char)
deriving Inhabited

namespace State

/-- The next token. -/
def peek (s : State) : Token :=
  s.tokens.headD .streamEnd

/-- Go on by one token. -/
def next (s : State) : State :=
  { s with tokens := s.tokens.drop 1 }

/-- Give an anchor, if there is one, to a node. -/
def name (anchor : Option (List Char)) (n : Option Node) (s : State) : State :=
  match anchor with
  | none => s
  | some a => { s with anchors := (a, n) :: s.anchors.filter fun p => p.1 != a }

end State

/-- Anchor and tag of a node, in any order. -/
def properties (s : State) : Option (List Char) × Option (Option (List Char) × List Char) × State :=
  match s.peek with
  | .anchor a =>
    match s.next.peek with
    | .tag h t => (some a, some (h, t), s.next.next)
    | _ => (some a, none, s.next)
  | .tag h t =>
    match s.next.peek with
    | .anchor a => (some a, some (h, t), s.next.next)
    | _ => (none, some (h, t), s.next)
  | _ => (none, none, s)

/-- The name of a tag; an exclamation mark alone is a tag without name. -/
def tagName (s : State) : Option (Option (List Char) × List Char) →
    Except Error (Option (List Char))
  | none => .ok none
  | some (none, t) => .ok (some t)
  | some (some h, t) =>
    match s.handles.lookup h with
    | some target => .ok (some (target ++ t))
    | none => .error (malformed "undefined tag handle")

/-- The tag of a scalar. -/
def scalarTag (name : Option (List Char)) (isPlain : Bool) : Tag :=
  match name with
  | none => if isPlain then .implicit else .byKind
  | some t => if t = ['!'] then .implicit else .named (String.ofList t)

/-- The tag of a sequence or mapping. -/
def collectionTag (name : Option (List Char)) : Tag :=
  match name with
  | none => .byKind
  | some t => if t = ['!'] then .byKind else .named (String.ofList t)

/-- Where a node stands. -/
structure Place where
  /-- Blocks may start here. -/
  allowsBlock : Bool
  /-- A sequence may start here without indentation. -/
  allowsFlat : Bool

/-- Within a flow collection. -/
def inFlow : Place :=
  ⟨false, false⟩

/-- In a block. -/
def inBlock : Place :=
  ⟨true, false⟩

/-- As the key or the value of a block mapping. -/
def inMapping : Place :=
  ⟨true, true⟩

/-- The error for a token that no node starts with. -/
def noNode : Error :=
  malformed "node expected"

/-- The deepest nesting of nodes. -/
def depthLimit : Nat :=
  486

/-- The error for nodes that are nested too deeply. -/
def tooDeep : Error :=
  .plain .tooDeep "nesting too deep"

mutual

/-- A node, with at most `n` steps; `d` is the number of nodes around it. -/
def read : Nat → Nat → Place → State → Except Error (Node × State)
  | 0, _, _, _ => .error noNode
  | n + 1, d, place, s =>
    match s.peek with
    | .alias a =>
      match s.anchors.lookup a with
      | none => .error (malformed "undefined alias")
      | some (some node) => .ok (node, s.next)
      | some none => .ok (.cycle, s.next)
    | _ => do
      let (anchor, property, s) := properties s
      let name ← tagName s property
      if d > depthLimit then .error tooDeep
      else if (anchor.bind fun a => s.anchors.lookup a).isSome then .error (malformed "duplicate anchor")
      else
        let (node, s) ← content n d place anchor name s
        .ok (node, s.name anchor (some node))

/-- What a node consists of, behind its anchor and its tag. -/
def content : Nat → Nat → Place → Option (List Char) → Option (List Char) → State →
    Except Error (Node × State)
  | 0, _, _, _, _, _ => .error noNode
  | n + 1, d, place, anchor, name, s =>
    let tag := collectionTag name
    let inner := s.name anchor none
    match s.peek with
    | .scalar text isPlain => .ok (.scalar (scalarTag name isPlain) text, s.next)
    | .flowSequenceStart => do
      let (xs, s) ← flowItems n (d + 1) true inner.next
      .ok (.sequence tag xs, s)
    | .flowMappingStart => do
      let (ps, s) ← flowPairs n (d + 1) true inner.next
      .ok (.mapping tag ps, s)
    | t =>
      if t = .entry ∧ place.allowsFlat then do
        let (xs, s) ← flatItems n (d + 1) inner
        .ok (.sequence tag xs, s)
      else if t = .sequenceStart ∧ place.allowsBlock then do
        let (xs, s) ← blockItems n (d + 1) inner.next
        .ok (.sequence tag xs, s)
      else if t = .mappingStart ∧ place.allowsBlock then do
        let (ps, s) ← blockPairs n (d + 1) inner.next
        .ok (.mapping tag ps, s)
      else if anchor.isSome ∨ name.isSome then .ok (.scalar (scalarTag name true) [], s)
      else .error noNode

/-- A node, unless one of some tokens stands in its place. -/
def readUnless : Nat → Nat → List Token → Place → State → Except Error (Node × State)
  | 0, _, _, _, _ => .error noNode
  | n + 1, d, stops, place, s =>
    if stops.contains s.peek then .ok (empty, s) else read n d place s

/-- The entries of a block sequence. -/
def blockItems : Nat → Nat → State → Except Error (List Node × State)
  | 0, _, _ => .error noNode
  | n + 1, d, s =>
    match s.peek with
    | .entry => do
      let (x, s) ← readUnless n d [.entry, .blockEnd] inBlock s.next
      let (xs, s) ← blockItems n d s
      .ok (x :: xs, s)
    | .blockEnd => .ok ([], s.next)
    | _ => .error (malformed "end of a block expected")

/-- The entries of a sequence without indentation. -/
def flatItems : Nat → Nat → State → Except Error (List Node × State)
  | 0, _, _ => .error noNode
  | n + 1, d, s =>
    match s.peek with
    | .entry => do
      let (x, s) ← readUnless n d [.entry, .key, .value, .blockEnd] inBlock s.next
      let (xs, s) ← flatItems n d s
      .ok (x :: xs, s)
    | _ => .ok ([], s)

/-- The value behind a key; it may be left out. -/
def valueAfterKey : Nat → Nat → List Token → Place → State → Except Error (Node × State)
  | 0, _, _, _, _ => .error noNode
  | n + 1, d, stops, place, s =>
    match s.peek with
    | .value => readUnless n d stops place s.next
    | _ => .ok (empty, s)

/-- The pairs of a block mapping. -/
def blockPairs : Nat → Nat → State → Except Error (List (Node × Node) × State)
  | 0, _, _ => .error noNode
  | n + 1, d, s =>
    match s.peek with
    | .key => do
      let (k, s) ← readUnless n d [.key, .value, .blockEnd] inMapping s.next
      let (v, s) ← valueAfterKey n d [.key, .value, .blockEnd] inMapping s
      let (ps, s) ← blockPairs n d s
      .ok ((k, v) :: ps, s)
    | .blockEnd => .ok ([], s.next)
    | _ => .error (malformed "end of a block expected")

/-- The items of a flow sequence. A pair stands for a mapping of its own. -/
def flowItems : Nat → Nat → Bool → State → Except Error (List Node × State)
  | 0, _, _, _ => .error noNode
  | n + 1, d, isFirst, s => do
    if s.peek = .flowSequenceEnd then .ok ([], s.next)
    else if !isFirst ∧ s.peek ≠ .flowEntry then .error (malformed "comma expected")
    else
      let s := if isFirst then s else s.next
      let stops : List Token := [.flowEntry, .flowSequenceEnd]
      match s.peek with
      | .flowSequenceEnd => .ok ([], s.next)
      | .key =>
        let (k, s) ← readUnless n (d + 1) (.value :: stops) inFlow s.next
        let (v, s) ← valueAfterKey n (d + 1) stops inFlow s
        let (xs, s) ← flowItems n d false s
        .ok (.mapping .byKind [(k, v)] :: xs, s)
      | _ =>
        let (x, s) ← read n d inFlow s
        let (xs, s) ← flowItems n d false s
        .ok (x :: xs, s)

/-- The pairs of a flow mapping. A node alone is a key. -/
def flowPairs : Nat → Nat → Bool → State → Except Error (List (Node × Node) × State)
  | 0, _, _, _ => .error noNode
  | n + 1, d, isFirst, s => do
    if s.peek = .flowMappingEnd then .ok ([], s.next)
    else if !isFirst ∧ s.peek ≠ .flowEntry then .error (malformed "comma expected")
    else
      let s := if isFirst then s else s.next
      let stops : List Token := [.flowEntry, .flowMappingEnd]
      match s.peek with
      | .flowMappingEnd => .ok ([], s.next)
      | .key =>
        let (k, s) ← readUnless n d (.value :: stops) inFlow s.next
        let (v, s) ← valueAfterKey n d stops inFlow s
        let (ps, s) ← flowPairs n d false s
        .ok ((k, v) :: ps, s)
      | _ =>
        let (k, s) ← read n d inFlow s
        let (ps, s) ← flowPairs n d false s
        .ok ((k, empty) :: ps, s)

end

/-! ## Documents -/

/-- The tag handles that need no directive. -/
def defaultHandles : List (List Char × List Char) :=
  [("!".toList, "!".toList), ("!!".toList, "tag:yaml.org,2002:".toList)]

/-- The directives in front of a document: the tag handles, and whether there was a version. -/
def directives : List Token → Bool → List (List Char × List Char) →
    Except Error (List (List Char × List Char) × List Token)
  | .version major :: ts, versioned, hs =>
    if versioned then .error (malformed "second version")
    else if major ≠ 1 then .error (malformed "unknown version")
    else directives ts true hs
  | .handle h target :: ts, versioned, hs =>
    if (hs.lookup h).isSome then .error (malformed "second meaning of a tag handle")
    else directives ts versioned ((h, target) :: hs)
  | .directive :: ts, versioned, hs => directives ts versioned hs
  | ts, _, hs => .ok (hs ++ defaultHandles, ts)

/-- A document behind its start; it may be empty. -/
def explicitDocument (n : Nat) (s : State) : Except Error (Node × State) :=
  match s.peek with
  | .documentStart => .ok (empty, s)
  | .documentEnd => .ok (empty, s)
  | .streamEnd => .ok (empty, s)
  | .version _ => .ok (empty, s)
  | .handle _ _ => .ok (empty, s)
  | .directive => .ok (empty, s)
  | _ => read n 0 inBlock s

/-- A document that starts with directives or with its mark. -/
def markedDocument (n : Nat) (ts : List Token) : Except Error (Node × State) := do
  let (handles, ts) ← directives ts false []
  match ts with
  | .documentStart :: ts => explicitDocument n ⟨ts, [], handles⟩
  | _ => .error (malformed "start of a document expected")

/-- The document that tokens start with. -/
def document (n : Nat) (ts : List Token) : Except Error (Node × State) :=
  match ts.head? with
  | some .documentStart => markedDocument n ts
  | some (.version _) => markedDocument n ts
  | some (.handle _ _) => markedDocument n ts
  | some .directive => markedDocument n ts
  | _ => read n 0 inBlock ⟨ts, [], defaultHandles⟩

/-- The node of a text with at most one document. -/
def ofTokens? (ts : List Token) : Except Error (Option Node) :=
  if ts.head? = some .streamEnd then .ok none
  else do
    let (node, s) ← document (4 * ts.length + 4) ts
    if (s.tokens.dropWhile (· == .documentEnd)).head? = some .streamEnd then .ok (some node)
    else .error (malformed "second document")

end Node

end Yaml

end AcmeClient
