import AcmeClient.Value
import AcmeClient.Text.Quoted

/-!
# Writing JSON

JSON texts are ASCII: other characters are written as escapes of their UTF-16 units. Items are
separated by comma and space, a name from its value by colon and space. Unlike the reader, the
writer has no limits: integers of more than 4300 digits and deep nesting, which the reader refuses,
are written like all else. Values beyond the limits of the reader are not considered here.

* `Json.write?`: the text of a value, if it has one;
* `Json.writeSorted?`: the text with the members of every object in the order of their names;
* `Json.quote`: a string.
-/

namespace AcmeClient

namespace Json

/-- The escape of a UTF-16 unit. -/
def unit (n : Nat) : List Char :=
  '\\' :: 'u' :: Quoted.hex 4 n

/-- How a character is written within a string. -/
def escape (c : Char) : List Char :=
  if c = '"' ∨ c = '\\' then ['\\', c]
  else if c = '\n' then ['\\', 'n']
  else if c = '\r' then ['\\', 'r']
  else if c = '\t' then ['\\', 't']
  else if c.toNat = 8 then ['\\', 'b']
  else if c.toNat = 12 then ['\\', 'f']
  else if 0x20 ≤ c.toNat ∧ c.toNat < 0x7f then [c]
  else if c.toNat < 0x10000 then unit c.toNat
  else
    let n := c.toNat - 0x10000
    unit (0xd800 + n / 0x400) ++ unit (0xdc00 + n % 0x400)

/-- A string in quotes. -/
def quote (s : String) : List Char :=
  '"' :: s.toList.flatMap escape ++ ['"']

/-- Fractions are written with the fewest digits; infinities and the undefined number have names. -/
def floatStyle : Binary64.Style where
  lowest := -4
  highest := 15
  exponentDigits := 2
  infinityName := "Infinity"
  nanName := "NaN"

/-- The texts of several items with separators between them. -/
def join : List (List Char) → List Char
  | [] => []
  | [x] => x
  | x :: y :: r => x ++ ',' :: ' ' :: join (y :: r)

mutual

/-- The characters of the text of a value; octets and points in time have none. -/
def chars? : Value → Option (List Char)
  | .null => some "null".toList
  | .bool b => some (if b then "true".toList else "false".toList)
  | .int n => some (toString n).toList
  | .float x => some (x.text floatStyle).toList
  | .text s => some (quote s)
  | .bytes _ => none
  | .time _ => none
  | .list xs => (itemChars? xs).map fun ts => '[' :: join ts ++ [']']
  | .object ms => (memberChars? ms).map fun ts => '\x7b' :: join ts ++ ['\x7d']

/-- The texts of the items of a list. -/
def itemChars? : List Value → Option (List (List Char))
  | [] => some []
  | x :: xs => do
    let t ← chars? x
    let ts ← itemChars? xs
    some (t :: ts)

/-- The texts of the members of an object. -/
def memberChars? : List (String × Value) → Option (List (List Char))
  | [] => some []
  | (k, v) :: ms => do
    let t ← chars? v
    let ts ← memberChars? ms
    some ((quote k ++ ':' :: ' ' :: t) :: ts)

end

/-- The JSON text of a value. It is that of a value within the limits of the reader; whether a value
goes beyond them is not looked at. -/
def write? (v : Value) : Option String :=
  (chars? v).map String.ofList

/-- Order of names by their characters. -/
def nameLe : List Char → List Char → Bool
  | [], _ => true
  | _ :: _, [] => false
  | a :: s, b :: t => if a = b then nameLe s t else a.toNat < b.toNat

/-- Put a member in front of the first one with a greater name. -/
def insertMember (p : String × Value) : List (String × Value) → List (String × Value)
  | [] => [p]
  | q :: ms =>
    if nameLe p.1.toList q.1.toList then p :: q :: ms else q :: insertMember p ms

mutual

/-- The members of every object in the order of their names. -/
def sorted : Value → Value
  | .list xs => .list (sortedItems xs)
  | .object ms => .object (sortedMembers ms)
  | v => v

/-- Sort within the items of a list. -/
def sortedItems : List Value → List Value
  | [] => []
  | x :: xs => sorted x :: sortedItems xs

/-- Sort members by name, and within each of them. -/
def sortedMembers : List (String × Value) → List (String × Value)
  | [] => []
  | (k, v) :: ms => insertMember (k, sorted v) (sortedMembers ms)

end

/-- The JSON text of a value with sorted members. -/
def writeSorted? (v : Value) : Option String :=
  write? (sorted v)

end Json

end AcmeClient
