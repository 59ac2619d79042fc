import AcmeClient.Octets

/-!
# Distinguished encoding

An element is a tag, the length of its content, and the content. In the distinguished encoding tag
and length have the fewest octets.

* `Der.Tag`, `Der.Element`: tags and elements;
* `Der.readElement?`: the first element of an octet string, and the rest;
* `Der.encode`: the element with a given tag and content;
* `Der.integer?`, `Der.encodeInteger`: integers in the shortest two's complement form;
* `Der.Reader`: reading element after element.
-/

namespace AcmeClient

namespace Der

/-- The tag of an element. -/
structure Tag where
  /-- Universal 0, application 1, context-specific 2, private 3. -/
  family : Nat
  /-- The content consists of elements. -/
  constructed : Bool
  number : Nat
deriving DecidableEq, Inhabited

namespace Tag

def boolean : Tag := ⟨0, false, 1⟩
def integer : Tag := ⟨0, false, 2⟩
def bitString : Tag := ⟨0, false, 3⟩
def octetString : Tag := ⟨0, false, 4⟩
def null : Tag := ⟨0, false, 5⟩
def objectId : Tag := ⟨0, false, 6⟩
def sequence : Tag := ⟨0, true, 16⟩
def set : Tag := ⟨0, true, 17⟩
def utcTime : Tag := ⟨0, false, 23⟩
def generalTime : Tag := ⟨0, false, 24⟩

/-- The context-specific tag of a field that wraps another element. -/
def explicit (n : Nat) : Tag := ⟨2, true, n⟩

/-- The context-specific tag of a field that replaces the tag of an element. -/
def implicit (n : Nat) : Tag := ⟨2, false, n⟩

end Tag

/-- An element. -/
structure Element where
  tag : Tag
  content : Octets
  /-- All octets of the element. -/
  octets : Octets
deriving DecidableEq, Inhabited

/-- A number in base 128, continued while the top bit is set, of at most `n` octets. -/
def readDigits? : Nat → Nat → Octets → Option (Nat × Octets)
  | 0, _, _ => none
  | _, _, [] => none
  | n + 1, acc, x :: b =>
    let acc := acc * 128 + x.toNat % 128
    if x < 128 then some (acc, b) else readDigits? n acc b

/-- A number in base 128 with the fewest octets, at most four. -/
def readNumber? (b : Octets) : Option (Nat × Octets) :=
  match b with
  | [] => none
  | x :: _ => if x = 128 then none else readDigits? 4 0 b

/-- The tag at the start of an octet string. -/
def readTag? : Octets → Option (Tag × Octets)
  | [] => none
  | x :: b =>
    let n := x.toNat
    let tag := fun (k : Nat) => Tag.mk (n / 64) (n / 32 % 2 = 1) k
    if n % 32 < 31 then some (tag (n % 32), b)
    else
      match readNumber? b with
      | some (k, b) => if k < 31 then none else some (tag k, b)
      | none => none

/-- The length at the start of an octet string, written with the fewest octets, at most four. -/
def readLength? : Octets → Option (Nat × Octets)
  | [] => none
  | x :: b =>
    let n := x.toNat
    if n < 128 then some (n, b)
    else
      let k := n - 128
      if k = 0 ∨ k > 4 ∨ b.length < k then none
      else
        let v := Octets.toNat (b.take k)
        if v < 128 ∨ b.head? = some 0 then none else some (v, b.drop k)

/-- The first element of an octet string, and the rest. -/
def readElement? (b : Octets) : Option (Element × Octets) := do
  let (tag, c) ← readTag? b
  let (n, c) ← readLength? c
  if c.length < n then none
  else some (⟨tag, c.take n, b.take (b.length - (c.length - n))⟩, c.drop n)

/-! ## Writing -/

/-- The octets of a length. -/
def encodeLength (n : Nat) : Octets :=
  if n < 128 then [UInt8.ofNat n]
  else UInt8.ofNat (128 + Octets.widthOf n) :: Octets.ofNat n

/-- The element with a tag of one octet. -/
def encode (tag : UInt8) (content : Octets) : Octets :=
  tag :: encodeLength content.length ++ content

/-! ## Integers -/

/-- The integer of a two's complement octet string. -/
def signed (b : Octets) : Int :=
  match b with
  | [] => 0
  | x :: _ =>
    if x < 128 then (Octets.toNat b : Int)
    else (Octets.toNat b : Int) - ((1 <<< (8 * b.length) : Nat) : Int)

/-- Not empty, and the first nine bits are not all equal. -/
def isMinimal : Octets → Bool
  | [] => false
  | [_] => true
  | x :: y :: _ => !(x == 0 && y < 128) && !(x == 255 && y ≥ 128)

/-- The integer of a content in the shortest two's complement form. -/
def integer? (content : Octets) : Option Int :=
  if isMinimal content then some (signed content) else none

/-- The number of octets of the shortest two's complement form. -/
def integerWidth (n : Int) : Nat :=
  let magnitude := if n < 0 then (-n - 1).toNat else n.toNat
  if magnitude = 0 then 1 else (Nat.log2 magnitude + 1) / 8 + 1

/-- The shortest two's complement form. -/
def encodeInteger (n : Int) : Octets :=
  let w := integerWidth n
  Octets.ofNatWidth w (n % ((1 <<< (8 * w) : Nat) : Int)).toNat

/-! ## Reading element after element -/

/-- Reading from the start of an octet string. -/
abbrev Reader (α : Type) := StateT Octets Option α

namespace Reader

/-- The next element. -/
def any : Reader Element :=
  fun b => readElement? b

/-- The content of the next element, which has a given tag. -/
def content (t : Tag) : Reader Octets :=
  fun b =>
    match readElement? b with
    | some (e, r) => if e.tag = t then some (e.content, r) else none
    | none => none

/-- The next element, which has a given tag. -/
def tagged (t : Tag) : Reader Element :=
  fun b =>
    match readElement? b with
    | some (e, r) => if e.tag = t then some (e, r) else none
    | none => none

/-- The next tag, if there is one. -/
def peek : Reader (Option Tag) :=
  fun b => some ((readTag? b).map (·.1), b)

/-- Read something that is present if the next tag is the given one. -/
def optional {α : Type} (t : Tag) (r : Reader α) : Reader (Option α) := do
  if (← peek) = some t then
    let x ← r
    pure (some x)
  else pure none

/-- A check of what was read. -/
def require (p : Bool) : Reader Unit :=
  fun b => if p then some ((), b) else none

end Reader

/-- Read an octet string to its end. -/
def readWhole? {α : Type} (r : Reader α) (b : Octets) : Option α :=
  match r b with
  | some (x, []) => some x
  | _ => none

/-- The elements of an octet string, at most `n` of them. -/
def readElements? : Nat → Octets → Option (List Element)
  | _, [] => some []
  | 0, _ :: _ => none
  | n + 1, b => do
    let (e, r) ← readElement? b
    let es ← readElements? n r
    some (e :: es)

/-- The elements that make up an octet string. -/
def elements? (b : Octets) : Option (List Element) :=
  readElements? b.length b

end Der

end AcmeClient
