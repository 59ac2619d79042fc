import AcmeClient.Binary64
import AcmeClient.Octets
import AcmeClient.Time.DateTime

/-!
# Dynamic values

Settings, request payloads and the documents of an authority are values whose shape is only known
when they are used. JSON texts and settings files are read into them.

* `Value`: the values;
* `Members.find?`, `Members.set`: the members of an object, in the order they were first set;
* `Value.isTrue`: whether a value counts as given;
* `Value.Jsonlike`: the values that a JSON text without fractions can hold.
-/

namespace AcmeClient

/-- A dynamic value. -/
inductive Value where
  | null
  | bool (b : Bool)
  | int (n : Int)
  | float (x : Binary64)
  | text (s : String)
  | bytes (b : Octets)
  | time (t : DateTime)
  | list (xs : List Value)
  | object (ms : List (String × Value))
deriving Inhabited

/-- The members of an object; no name occurs twice. -/
abbrev Members := List (String × Value)

namespace Members

/-- The member of a name. -/
def find? (ms : Members) (name : String) : Option Value :=
  match ms with
  | [] => none
  | (k, v) :: r => if k = name then some v else find? r name

/-- The member of a name, null if there is none. -/
def get (ms : Members) (name : String) : Value :=
  (find? ms name).getD .null

/-- Replace the member of a name, or add it at the end. -/
def set (ms : Members) (name : String) (v : Value) : Members :=
  match ms with
  | [] => [(name, v)]
  | (k, w) :: r => if k = name then (k, v) :: r else (k, w) :: set r name v

/-- Set several members one after the other. -/
def setAll (ms : Members) (new : List (String × Value)) : Members :=
  new.foldl (fun r p => set r p.1 p.2) ms

end Members

namespace Value

/-- Null, false, zero and everything empty count as absent, the rest as given. -/
def isTrue : Value → Bool
  | null => false
  | bool b => b
  | int n => n != 0
  | float x => !x.isZero
  | text s => s != ""
  | bytes b => !b.isEmpty
  | time _ => true
  | list xs => !xs.isEmpty
  | object ms => !ms.isEmpty

/-- The integer a value is equal to; truth values count as 0 and 1. -/
def toInt? : Value → Option Int
  | bool b => some (if b then 1 else 0)
  | int n => some n
  | float x => x.toInt?
  | _ => none

/-- The first of two values that counts as given, else the second. -/
def orElse (a b : Value) : Value :=
  if a.isTrue then a else b

/-- Values built from null, truth values, integers, texts, lists and objects. -/
inductive Jsonlike : Value → Prop
  | null : Jsonlike null
  | bool (b : Bool) : Jsonlike (bool b)
  | int (n : Int) : Jsonlike (int n)
  | text (s : String) : Jsonlike (text s)
  | list (xs : List Value) : (∀ x ∈ xs, Jsonlike x) → Jsonlike (list xs)
  | object (ms : Members) : (ms.map (·.1)).Nodup → (∀ p ∈ ms, Jsonlike p.2) → Jsonlike (object ms)

end Value

end AcmeClient
