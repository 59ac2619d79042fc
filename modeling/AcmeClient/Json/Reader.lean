import AcmeClient.Value

/-!
# Reading JSON

The reader accepts RFC 8259 and the number names `NaN`, `Infinity` and `-Infinity`. Of members with
one name the last counts. Integers of more than 4300 digits and deep nesting are refused.

* `Json.Fault`: why a text is refused;
* `Json.read`: the value of a text;
* `Json.readString`: the rest of a string after its opening quote.
-/

namespace AcmeClient

namespace Json

/-- Why a text is refused. -/
inductive Fault where
  /-- The text is not JSON. -/
  | malformed
  /-- An integer has too many digits. -/
  | longInteger
  /-- Lists and objects are nested too deeply. -/
  | deep
deriving DecidableEq, Inhabited

/-- The characters between tokens. -/
def isGap (c : Char) : Bool :=
  c == ' ' || c == '\t' || c == '\n' || c == '\r'

/-- Skip the characters between tokens. -/
def skipGap (s : List Char) : List Char :=
  s.dropWhile isGap

/-- The UTF-16 unit written by four hexadecimal digits. -/
def unit? (a b c d : Char) : Option Nat := do
  some ((((← Digit.hex? a) * 16 + (← Digit.hex? b)) * 16 + (← Digit.hex? c)) * 16 + (← Digit.hex? d))

/-- The character of a single-letter escape. -/
def shortEscape? (c : Char) : Option Char :=
  if c = '"' ∨ c = '\\' ∨ c = '/' then some c
  else if c = 'b' then some (Char.ofNat 8)
  else if c = 'f' then some (Char.ofNat 12)
  else if c = 'n' then some '\n'
  else if c = 'r' then some '\r'
  else if c = 't' then some '\t'
  else none

/-- The character of a UTF-16 unit; half of a pair that stands alone is replaced. -/
def charOfUnit (n : Nat) : Char :=
  if 0xd800 ≤ n ∧ n ≤ 0xdfff then Char.ofNat 0xfffd else Char.ofNat n

/-- The character of a pair of UTF-16 units. -/
def charOfPair (high low : Nat) : Char :=
  Char.ofNat (0x10000 + (high - 0xd800) * 0x400 + (low - 0xdc00))

/-- The characters of a string after its opening quote, and what follows the closing quote. -/
def readString : List Char → Option (List Char × List Char)
  | '"' :: s => some ([], s)
  | '\\' :: 'u' :: a :: b :: c :: d :: '\\' :: 'u' :: e :: f :: g :: h :: s =>
    match unit? a b c d, unit? e f g h with
    | some m, some n =>
      if 0xd800 ≤ m ∧ m ≤ 0xdbff ∧ 0xdc00 ≤ n ∧ n ≤ 0xdfff then
        (readString s).map fun r => (charOfPair m n :: r.1, r.2)
      else (readString ('\\' :: 'u' :: e :: f :: g :: h :: s)).map fun r => (charOfUnit m :: r.1, r.2)
    | _, _ => none
  | '\\' :: 'u' :: a :: b :: c :: d :: s =>
    match unit? a b c d with
    | some m => (readString s).map fun r => (charOfUnit m :: r.1, r.2)
    | none => none
  | '\\' :: x :: s =>
    match shortEscape? x with
    | some c => (readString s).map fun r => (c :: r.1, r.2)
    | none => none
  | c :: s =>
    if c.toNat < 0x20 ∨ c = '\\' then none
    else (readString s).map fun r => (c :: r.1, r.2)
  | [] => none

/-- The ASCII digits at the start of a text, and the rest. -/
def digits (s : List Char) : List Char × List Char :=
  (s.takeWhile fun c => (Digit.ascii? c).isSome, s.dropWhile fun c => (Digit.ascii? c).isSome)

/-- A fraction after the whole part: digits behind a point. -/
def readFraction (s : List Char) : List Char × List Char :=
  match s with
  | '.' :: r =>
    let (ds, r') := digits r
    if ds.isEmpty then ([], s) else (ds, r')
  | _ => ([], s)

/-- An exponent part, if there is one. -/
def readExponent (s : List Char) : Option Int × List Char :=
  let number := fun (negative : Bool) (r : List Char) =>
    let (ds, r') := digits r
    if ds.isEmpty then (none, s)
    else (some (if negative then -(Digit.natOf ds : Int) else (Digit.natOf ds : Int)), r')
  let signed := fun (r : List Char) =>
    match r with
    | '+' :: r => number false r
    | '-' :: r => number true r
    | r => number false r
  match s with
  | 'e' :: r => signed r
  | 'E' :: r => signed r
  | _ => (none, s)

/-- The greatest number of digits of an integer. -/
def digitLimit : Nat :=
  4300

/-- A number without its sign, and what follows it. -/
def readNumber (negative : Bool) (s : List Char) : Except Fault (Value × List Char) :=
  let (all, rest) := digits s
  let (whole, rest) := match all with
    | '0' :: _ => (['0'], s.drop 1)
    | _ => (all, rest)
  if whole.isEmpty then .error .malformed
  else
    let (part, rest) := readFraction rest
    let (exponent, rest) := readExponent rest
    if part.isEmpty ∧ exponent.isNone then
      if whole.length > digitLimit then .error .longInteger
      else .ok (.int (if negative then -(Digit.natOf whole : Int) else (Digit.natOf whole : Int)), rest)
    else
      .ok (.float (Binary64.ofDecimal negative (Digit.natOf (whole ++ part))
        (exponent.getD 0 - part.length)), rest)

/-- A name for a value, or a number. -/
def readScalar (s : List Char) : Except Fault (Value × List Char) :=
  match s with
  | 'n' :: 'u' :: 'l' :: 'l' :: r => .ok (.null, r)
  | 't' :: 'r' :: 'u' :: 'e' :: r => .ok (.bool true, r)
  | 'f' :: 'a' :: 'l' :: 's' :: 'e' :: r => .ok (.bool false, r)
  | 'N' :: 'a' :: 'N' :: r => .ok (.float .nan, r)
  | 'I' :: 'n' :: 'f' :: 'i' :: 'n' :: 'i' :: 't' :: 'y' :: r => .ok (.float (.infinity false), r)
  | '-' :: 'I' :: 'n' :: 'f' :: 'i' :: 'n' :: 'i' :: 't' :: 'y' :: r =>
    .ok (.float (.infinity true), r)
  | '-' :: r => readNumber true r
  | r => readNumber false r

/-- How deeply lists and objects may be nested. -/
def depthLimit : Nat :=
  980

mutual

/-- One value and what follows it; `depth` counts the lists and objects around it. -/
def readValue : Nat → Nat → List Char → Except Fault (Value × List Char)
  | 0, _, _ => .error .malformed
  | fuel + 1, depth, s =>
    match s with
    | '"' :: r =>
      match readString r with
      | some (t, r) => .ok (.text (String.ofList t), r)
      | none => .error .malformed
    | '[' :: r =>
      if depth ≥ depthLimit then .error .deep
      else
        match skipGap r with
        | ']' :: r => .ok (.list [], r)
        | r => (readItems fuel (depth + 1) r).map fun p => (.list p.1, p.2)
    | '\x7b' :: r =>
      if depth ≥ depthLimit then .error .deep
      else
        match skipGap r with
        | '\x7d' :: r => .ok (.object [], r)
        | r => (readMembers fuel (depth + 1) [] r).map fun p => (.object p.1, p.2)
    | r => readScalar r

/-- The items of a list from the first one on, with the closing bracket. -/
def readItems : Nat → Nat → List Char → Except Fault (List Value × List Char)
  | 0, _, _ => .error .malformed
  | fuel + 1, depth, s => do
    let (v, r) ← readValue fuel depth s
    match skipGap r with
    | ']' :: r => .ok ([v], r)
    | ',' :: r =>
      let (vs, r) ← readItems fuel depth (skipGap r)
      .ok (v :: vs, r)
    | _ => .error .malformed

/-- The members of an object from the first name on, added to those before, with the closing
brace. -/
def readMembers : Nat → Nat → Members → List Char → Except Fault (Members × List Char)
  | 0, _, _, _ => .error .malformed
  | fuel + 1, depth, ms, s =>
    match s with
    | '"' :: r =>
      match readString r with
      | none => .error .malformed
      | some (k, r) =>
        match skipGap r with
        | ':' :: r => do
          let (v, r) ← readValue fuel depth (skipGap r)
          let ms := ms.set (String.ofList k) v
          match skipGap r with
          | '\x7d' :: r => .ok (ms, r)
          | ',' :: r => readMembers fuel depth ms (skipGap r)
          | _ => .error .malformed
        | _ => .error .malformed
    | _ => .error .malformed

end

/-- The value of a text. A byte order mark is not part of JSON. -/
def readChars (s : List Char) : Except Fault Value := do
  let (v, r) ← readValue (2 * s.length + 2) 0 (skipGap s)
  if (skipGap r).isEmpty then .ok v else .error .malformed

/-- The value of a text. -/
def read (s : String) : Except Fault Value :=
  readChars s.toList

end Json

end AcmeClient
