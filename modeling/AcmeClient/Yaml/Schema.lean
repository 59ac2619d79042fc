import AcmeClient.Base64
import AcmeClient.Time.DateTime
import AcmeClient.Value.Display
import AcmeClient.Yaml.Node
import AcmeClient.Yaml.Number

/-!
# Values of nodes

What the nodes of a document stand for. Plain scalars may be null, truth values, numbers or points
in time; mappings may take over the pairs of others. If several nodes are faulty, the one with the
fewest nodes around it is reported, and of these the first one.

* `Yaml.Kind`: the kinds of values with a tag;
* `Yaml.Kind.ofPlain`: the kind of a plain scalar;
* `Yaml.Node.value`: the value of a node.
-/

namespace AcmeClient

namespace Yaml

/-- The kinds of values with a tag. -/
inductive Kind where
  | null
  | bool
  | integer
  | fraction
  | binary
  | time
  | text
  | list
  | object
  | set
  | pairs
  /-- The key that takes over the pairs of other mappings. -/
  | merge
  /-- The key of the value that stands for the whole mapping. -/
  | default
  | unknown
deriving DecidableEq, Inhabited

namespace Kind

/-- The kind with a tag. -/
def ofName (s : String) : Kind :=
  (([("null", null), ("bool", bool), ("int", integer), ("float", fraction), ("binary", binary),
    ("timestamp", time), ("str", text), ("seq", list), ("map", object), ("set", set),
    ("omap", pairs), ("pairs", pairs), ("merge", merge), ("value", default)] :
    List (String × Kind)).find? fun p => "tag:yaml.org,2002:" ++ p.1 = s).elim unknown (·.2)

/-- The words for true. -/
def trueWords : List String :=
  ["yes", "Yes", "YES", "true", "True", "TRUE", "on", "On", "ON"]

/-- The words for false. -/
def falseWords : List String :=
  ["no", "No", "NO", "false", "False", "FALSE", "off", "Off", "OFF"]

/-- The words for null; the empty text is one of them. -/
def nullWords : List String :=
  ["", "~", "null", "Null", "NULL"]

end Kind

/-! ## Points in time -/

/-- The parts of a written point in time. -/
structure Stamp where
  date : Calendar.Date
  clock : Option DateTime.Clock
  /-- The offset in seconds. -/
  offset : Option Int
  /-- Month and day have two digits each. -/
  isWide : Bool

namespace Stamp

/-- The digits at the start of a text, at least `low` and at most `high` of them. -/
def digits? (low high : Nat) (s : List Char) : Option (List Char × List Char) :=
  let ds := (s.take high).takeWhile Char.isDigit
  if ds.length < low then none else some (ds, s.drop ds.length)

/-- Whole hours and minutes as seconds, behind the sign of an offset. -/
def offset? (s : List Char) : Option Int := do
  let (h, s) ← digits? 1 2 s
  let m ← match s with
    | [] => some ['0']
    | ':' :: r => do
      let (m, r) ← digits? 2 2 r
      if r.isEmpty then some m else none
    | _ => none
  some ((Digit.natOf h * 3600 + Digit.natOf m * 60 : Nat) : Int)

/-- The offset at the end of a text, which may be missing. -/
def zone? (s : List Char) : Option (Option Int) :=
  if s.isEmpty then some none
  else
    match s.dropWhile isGap with
    | ['Z'] => some (some 0)
    | '+' :: r => (offset? r).map some
    | '-' :: r => (offset? r).map fun o => some (-o)
    | _ => none

/-- A fraction of a second behind a point, in microseconds; further digits are dropped. -/
def fraction (s : List Char) : Nat × List Char :=
  match s with
  | '.' :: r =>
    let ds := r.takeWhile Char.isDigit
    (Digit.natOf (ds.take 6 ++ List.replicate (6 - ds.length) '0'), r.dropWhile Char.isDigit)
  | _ => (0, s)

/-- What stands between the date and the time of day. -/
def separator? (s : List Char) : Option (List Char) :=
  if s.head? = some 'T' ∨ s.head? = some 't' then some (s.drop 1)
  else if (s.head?.map isGap).getD false then some (s.dropWhile isGap)
  else none

/-- The parts of a written point in time. -/
def read? (s : List Char) : Option Stamp := do
  let (y, s) ← digits? 4 4 s
  let (mo, s) ← digits? 1 2 (← Text.after? ['-'] s)
  let (d, s) ← digits? 1 2 (← Text.after? ['-'] s)
  let date : Calendar.Date := ⟨Digit.natOf y, Digit.natOf mo, Digit.natOf d⟩
  let isWide := mo.length = 2 ∧ d.length = 2
  if s.isEmpty then some ⟨date, none, none, isWide⟩
  else
    let (h, s) ← digits? 1 2 (← separator? s)
    let (mi, s) ← digits? 2 2 (← Text.after? [':'] s)
    let (sec, s) ← digits? 2 2 (← Text.after? [':'] s)
    let (us, s) := fraction s
    let offset ← zone? s
    some ⟨date, some ⟨Digit.natOf h, Digit.natOf mi, Digit.natOf sec, us⟩, offset, isWide⟩

/-- A plain scalar is a point in time. -/
def isTime (s : List Char) : Bool :=
  match read? s with
  | some t => t.clock.isSome || t.isWide
  | none => false

/-- The point in time of a text; a date alone stands for its midnight. -/
def time (s : List Char) : Except Error DateTime :=
  match read? s with
  | none => .error (.plain .noOperation "no point in time")
  | some t =>
    if (t.offset.getD 0).natAbs ≥ 86400 then .error (.plain .value "offset out of range")
    else
      match DateTime.ofFields? t.date (t.clock.getD ⟨0, 0, 0, 0⟩) t.offset with
      | some u => .ok u
      | none => .error (.plain .value "no point in time")

end Stamp

/-! ## Scalars -/

/-- The kind of a plain scalar. -/
def Kind.ofPlain (s : List Char) : Kind :=
  let t := String.ofList s
  if trueWords.contains t || falseWords.contains t then bool
  else if Number.isFraction s then fraction
  else if Number.isInteger s then integer
  else if t = "<<" then merge
  else if nullWords.contains t then null
  else if Stamp.isTime s then time
  else if t = "=" then default
  else if ["!", "&", "*"].contains t then unknown
  else text

/-- The kind of a node. -/
def Node.kind : Node → Kind
  | .scalar .implicit s => .ofPlain s
  | .scalar .byKind _ => .text
  | .scalar (.named n) _ => .ofName n
  | .sequence (.named n) _ => .ofName n
  | .sequence _ _ => .list
  | .mapping (.named n) _ => .ofName n
  | .mapping _ _ => .object
  | .cycle => .null

/-- A truth value from its word in any case. -/
def boolOf (s : List Char) : Except Error Value :=
  let t := String.ofList (Number.lower s)
  if ["yes", "true", "on"].contains t then .ok (.bool true)
  else if ["no", "false", "off"].contains t then .ok (.bool false)
  else .error (.plain .missingName t)

/-- Octets in base 64. -/
def binaryOf (s : List Char) : Except Error Value :=
  match Base64.decodeLenient? s with
  | some b => if s.all fun c => c.toNat < 128 then .ok (.bytes b) else .error (malformed "no base 64")
  | none => .error (malformed "no base 64")

/-- The value of a scalar of a kind. -/
def scalarValue (k : Kind) (s : List Char) : Except Error Value :=
  match k with
  | .null => .ok .null
  | .bool => boolOf s
  | .integer => (Number.integer s).map .int
  | .fraction => (Number.fraction s).map .float
  | .binary => binaryOf s
  | .time => (Stamp.time s).map .time
  | _ => .ok (.text (String.ofList s))

namespace Node

/-- The text of a node as a scalar; that of a mapping is the text of its default value. -/
def scalarText : Nat → Node → Except Error (List Char)
  | _, .scalar _ s => .ok s
  | n + 1, .mapping _ ps =>
    match ps.find? fun p => p.1.kind = .default with
    | some p => scalarText n p.2
    | none => .error (malformed "scalar expected")
  | _, _ => .error (malformed "scalar expected")

mutual

/-- The number of nodes on the longest way down. -/
def height : Node → Nat
  | .scalar _ _ => 1
  | .cycle => 1
  | .sequence _ xs => listHeight xs + 1
  | .mapping _ ps => pairsHeight ps + 1

/-- The height of the highest of several nodes. -/
def listHeight : List Node → Nat
  | [] => 0
  | x :: xs => max (height x) (listHeight xs)

/-- The height of the highest node in several pairs. -/
def pairsHeight : List (Node × Node) → Nat
  | [] => 0
  | (k, v) :: ps => max (max (height k) (height v)) (pairsHeight ps)

end

/-! ## Mappings -/

/-- The error for something that cannot be taken over. -/
def noMerge : Error :=
  malformed "mapping expected to take over"

/-- A key that stands for the whole mapping is an ordinary key in a mapping. -/
def plainKey (p : Node × Node) : Node × Node :=
  match p.1.kind, p.1 with
  | .default, .scalar _ s => (.scalar .byKind s, p.2)
  | _, _ => p

mutual

/-- The pairs of a mapping: those of the mappings it takes over, then its own. -/
def allPairs : Nat → List (Node × Node) → Except Error (List (Node × Node))
  | 0, ps => .ok ps
  | n + 1, ps => do
    let taken ← (ps.filter fun p => p.1.kind = .merge).mapM fun p => takenPairs n p.2
    .ok (taken.flatten ++ (ps.filter fun p => p.1.kind ≠ .merge).map plainKey)

/-- The pairs that are taken over from a mapping, or from several of which the first one counts. -/
def takenPairs : Nat → Node → Except Error (List (Node × Node))
  | n + 1, .mapping _ ps => allPairs n ps
  | n + 1, .sequence _ xs => do
    let taken ← xs.mapM fun x =>
      match x with
      | .mapping _ ps => allPairs n ps
      | .cycle => .ok []
      | _ => .error noMerge
    .ok taken.reverse.flatten
  | _, .cycle => .ok []
  | _, _ => .error noMerge

end

/-! ## Values -/

/-- A value with the first fault among the nodes with the fewest nodes around them. -/
structure Reading (α : Type) where
  value : α
  fault : Option (Nat × Error)

/-- The fault that is reported of two, of which the first one stands in front. -/
def firstFault (a b : Option (Nat × Error)) : Option (Nat × Error) :=
  match a, b with
  | some (i, e), some (j, f) => if j < i then some (j, f) else some (i, e)
  | none, b => b
  | a, none => a

/-- A reading at a depth. -/
def readingOf (d : Nat) (r : Except Error Value) : Reading Value :=
  match r with
  | .ok v => ⟨v, none⟩
  | .error e => ⟨.null, some (d, e)⟩

/-- A fault at a depth. -/
def faultAt (d : Nat) (message : String) : Reading Value :=
  ⟨.null, some (d, malformed message)⟩

/-- A list or an object cannot be a key. -/
def isKeyable : Value → Bool
  | .list _ => false
  | .object _ => false
  | _ => true

/-- The name of a member. -/
def memberName : Value → String
  | .null => "null"
  | .bool b => if b then "true" else "false"
  | v => v.display

/-- Several readings, one after the other. -/
def collect {α : Type} : List (Reading α) → Reading (List α)
  | [] => ⟨[], none⟩
  | r :: rs =>
    let rest := collect rs
    ⟨r.value :: rest.value, firstFault r.fault rest.fault⟩

/-- Two readings as one. -/
def both (a b : Reading Value) : Reading (Value × Value) :=
  ⟨(a.value, b.value), firstFault a.fault b.fault⟩

/-- The reading of a key at a depth; lists and objects are no keys. -/
def keyReading (d : Nat) (k : Node) (r : Reading Value) : Reading Value :=
  match k with
  | .cycle => faultAt d "key within itself"
  | _ =>
    if isKeyable r.value then r
    else ⟨r.value, firstFault r.fault (some (d, malformed "list or object as a key"))⟩

/-- The readings of the pairs of a mapping at a depth; `f` reads a node. -/
def memberReadings (d : Nat) (f : Node → Reading Value) (ps : List (Node × Node)) :
    Reading (List (Value × Value)) :=
  match allPairs (pairsHeight ps + 1) ps with
  | .error e => ⟨[], some (d, e)⟩
  | .ok ps => collect (ps.map fun p => both (keyReading d p.1 (f p.1)) (f p.2))

/-- The reading of a mapping with one pair at a depth; `f` reads a node. -/
def pairReading (d : Nat) (f : Node → Reading Value) : Node → Reading Value
  | .mapping _ [(k, v)] =>
    let r := both (f k) (f v)
    ⟨.list [r.value.1, r.value.2], r.fault⟩
  | _ => faultAt d "mapping with one pair expected"

/-- Pairs as the members of an object. -/
def objectOf (ps : List (Value × Value)) : Value :=
  .object (Members.setAll [] (ps.map fun p => (memberName p.1, p.2)))

/-- The value of a node with `d` nodes around it, for nodes of a height of at most `n`. -/
def reading : Nat → Nat → Node → Reading Value
  | 0, d, _ => faultAt d "nesting too deep"
  | n + 1, d, node =>
    match node.kind, node with
    | _, .cycle => ⟨.null, none⟩
    | .unknown, _ => faultAt d "unknown tag"
    | .merge, _ => faultAt d "unknown tag"
    | .default, _ => faultAt d "unknown tag"
    | .list, .sequence _ xs =>
      let r := collect (xs.map (reading n (d + 1)))
      ⟨.list r.value, r.fault⟩
    | .list, _ => faultAt (d + 1) "sequence expected"
    | .object, .mapping _ ps =>
      let r := memberReadings (d + 1) (reading n (d + 1)) ps
      ⟨objectOf r.value, r.fault⟩
    | .object, _ => faultAt (d + 1) "mapping expected"
    | .set, .mapping _ ps =>
      let r := memberReadings (d + 1) (reading n (d + 1)) ps
      ⟨.list (r.value.map (·.1)), r.fault⟩
    | .set, _ => faultAt (d + 1) "mapping expected"
    | .pairs, .sequence _ xs =>
      let r := collect (xs.map (pairReading (d + 1) (reading n (d + 1))))
      ⟨.list r.value, r.fault⟩
    | .pairs, _ => faultAt (d + 1) "sequence expected"
    | k, node => readingOf d (do
        let s ← scalarText (n + 1) node
        scalarValue k s)

/-- The value of a node. -/
def value (node : Node) : Except Error Value :=
  let r := reading (height node + 1) 0 node
  match r.fault with
  | none => .ok r.value
  | some (_, e) => .error e

end Node

end Yaml

end AcmeClient
