import AcmeClient.Der

/-!
# Lenient reading of elements

A reader for elements whose lengths need not be the shortest and may be left open; an element of
open length ends with two zero octets behind its last part. Parts of open length can be nested up to
ten levels deep.

* `Lenient.readElement?`: the first element of an octet string, and the rest;
* `Lenient.children?`: the elements of a content;
* `Lenient.number`: the numbers of an object identifier.
-/

namespace AcmeClient

namespace Lenient

/-- A number in base 128 with the fewest octets, of any size. -/
def readDigits? : Nat → Octets → Option (Nat × Octets)
  | _, [] => none
  | acc, x :: b =>
    if x = 128 ∧ acc = 0 then none
    else
      let acc := acc * 128 + x.toNat % 128
      if x < 128 then some (acc, b) else readDigits? acc b

/-- The tag at the start of an octet string. -/
def readTag? : Octets → Option (Der.Tag × Octets)
  | [] => none
  | x :: b =>
    let n := x.toNat
    let tag := fun (k : Nat) => Der.Tag.mk (n / 64) (n / 32 % 2 = 1) k
    if n % 32 < 31 then some (tag (n % 32), b)
    else
      match readDigits? 0 b with
      | some (k, b) => if k < 31 then none else some (tag k, b)
      | none => none

/-- The length at the start of an octet string; `none` inside if it is left open. -/
def readLength? : Octets → Option (Option Nat × Octets)
  | [] => none
  | x :: b =>
    let k := x.toNat - 128
    if x < 128 then some (some x.toNat, b)
    else if k = 0 then some (none, b)
    else if b.length < k then none
    else some (some (Octets.toNat (b.take k)), b.drop k)

/-- Tag and length at the start of an octet string; only a constructed element has open length. -/
def readHeader? (b : Octets) : Option (Der.Tag × Option Nat × Octets) := do
  let (t, b) ← readTag? b
  let (n, b) ← readLength? b
  if n.isNone ∧ !t.constructed then none else some (t, n, b)

/-- Skip the parts of an element of open length, with at most `fuel` steps and `depth` levels; the
result starts with the two zero octets. -/
def skipParts? : Nat → Nat → Octets → Option Octets
  | 0, _, _ => none
  | _ + 1, _, 0 :: 0 :: b => some (0 :: 0 :: b)
  | _ + 1, 0, _ => none
  | fuel + 1, depth + 1, b => do
    let (_, n, r) ← readHeader? b
    match n with
    | some n => if r.length < n then none else skipParts? fuel (depth + 1) (r.drop n)
    | none =>
      let e ← skipParts? fuel depth r
      skipParts? fuel (depth + 1) (e.drop 2)

/-- An element whose length may be left open. -/
structure Element where
  tag : Der.Tag
  content : Octets
  /-- All octets of the element; an open length is filled in. -/
  octets : Octets
deriving DecidableEq, Inhabited

/-- The first element of an octet string, and the rest. -/
def readElement? (b : Octets) : Option (Element × Octets) := do
  let (t, n, c) ← readHeader? b
  match n with
  | some n =>
    if c.length < n then none
    else some (⟨t, c.take n, b.take (b.length - (c.length - n))⟩, c.drop n)
  | none =>
    let e ← skipParts? (c.length + 1) 10 c
    let content := c.take (c.length - e.length)
    let head := b.take (b.length - c.length - 1)
    some (⟨t, content, head ++ Der.encodeLength content.length ++ content⟩, e.drop 2)

/-- The elements of a content, at most `n` of them. -/
def childrenWithin? : Nat → Octets → Option (List Element)
  | _, [] => some []
  | 0, _ :: _ => none
  | n + 1, b => do
    let (e, r) ← readElement? b
    let es ← childrenWithin? n r
    some (e :: es)

/-- The elements of a content. -/
def children? (b : Octets) : Option (List Element) :=
  childrenWithin? b.length b

/-- The elements within an element with a given tag. -/
def Element.within? (e : Element) (t : Der.Tag) : Option (List Element) :=
  if e.tag = t then children? e.content else none

/-- The numbers of an object identifier, continued from `acc`; an unfinished one is dropped. -/
def numbers : Nat → Octets → List Nat
  | _, [] => []
  | acc, x :: b =>
    let acc := acc * 128 + x.toNat % 128
    if x < 128 then acc :: numbers 0 b else numbers acc b

end Lenient

end AcmeClient
