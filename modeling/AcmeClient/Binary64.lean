import AcmeClient.Text.Digit

/-!
# Floating-point numbers

Numbers of the 64-bit binary format, held as sign, mantissa and exponent, so that every operation is
exact arithmetic followed by one rounding to the nearest number, ties to even.

* `Binary64`: the numbers; a finite one is `± m * 2 ^ e` with `m` below `2 ^ 53` and `e` at least
  `-1074`, and `m` has 53 bits unless `e` is `-1074`;
* `Binary64.ofRatio`: rounding of a quotient of natural numbers;
* `Binary64.ofDecimal`: reading digits and an exponent;
* `Binary64.mul`, `Binary64.add`;
* `Binary64.shortest`: the fewest decimal digits that read back as the number;
* `Binary64.text`: the number written in a style.
-/

namespace AcmeClient

/-- A number of the 64-bit binary floating-point format. -/
inductive Binary64 where
  /-- The number `± mantissa * 2 ^ exponent`. -/
  | finite (negative : Bool) (mantissa : Nat) (exponent : Int)
  | infinity (negative : Bool)
  | nan
deriving DecidableEq, Inhabited

namespace Binary64

/-- The nearest integer to `a / b`, halves to the even neighbour. -/
def divNearest (a b : Nat) : Nat :=
  let q := a / b
  let r := a % b
  if 2 * r > b ∨ (2 * r = b ∧ q % 2 = 1) then q + 1 else q

/-- Numerator and denominator of `n / d` scaled by `2 ^ s`. -/
def scale (n d : Nat) (s : Int) : Nat × Nat :=
  if s ≥ 0 then (n <<< s.toNat, d) else (n, d <<< (-s).toNat)

/-- The exponent of the greatest power of two that is at most `n / d`. -/
def log2Ratio (n d : Nat) : Int :=
  let l : Int := (Nat.log2 n : Int) - (Nat.log2 d : Int)
  let (n', d') := scale n d (-l)
  if n' < d' then l - 1 else l

/-- The number nearest to `± n / d`, ties to the even mantissa. -/
def ofRatio (negative : Bool) (n d : Nat) : Binary64 :=
  if n = 0 then finite negative 0 (-1074)
  else
    let e := max (log2Ratio n d - 52) (-1074)
    let (n', d') := scale n d (-e)
    let m := divNearest n' d'
    let (m, e) := if m = 0x20000000000000 then (0x10000000000000, e + 1) else (m, e)
    if e > 971 then infinity negative else finite negative m e

/-- The number nearest to `± digits * 10 ^ exponent`. -/
def ofDecimal (negative : Bool) (digits : Nat) (exponent : Int) : Binary64 :=
  let magnitude := exponent + (Digit.text digits).length
  if digits = 0 ∨ magnitude < -330 then ofRatio negative 0 1
  else if magnitude > 320 then infinity negative
  else if exponent ≥ 0 then ofRatio negative (digits * Nat.pow 10 exponent.toNat) 1
  else ofRatio negative digits (Nat.pow 10 (-exponent).toNat)

/-- The number nearest to an integer. -/
def ofInt (n : Int) : Binary64 :=
  ofRatio (n < 0) n.natAbs 1

/-- The absolute value of a finite number as a quotient. -/
def ratio (m : Nat) (e : Int) : Nat × Nat :=
  scale m 1 e

/-- The rounded product. -/
def mul : Binary64 → Binary64 → Binary64
  | nan, _ => nan
  | _, nan => nan
  | infinity s, infinity t => infinity (s != t)
  | infinity s, finite t m _ => if m = 0 then nan else infinity (s != t)
  | finite s m _, infinity t => if m = 0 then nan else infinity (s != t)
  | finite s m e, finite t n f =>
    let (a, b) := ratio (m * n) (e + f)
    ofRatio (s != t) a b

/-- The signed mantissa of a finite number at the exponent `f`, which is at most its own. -/
def mantissaAt (f : Int) (negative : Bool) (m : Nat) (e : Int) : Int :=
  let k : Int := (m <<< (e - f).toNat : Nat)
  if negative then -k else k

/-- The rounded sum. -/
def add : Binary64 → Binary64 → Binary64
  | nan, _ => nan
  | _, nan => nan
  | infinity s, infinity t => if s = t then infinity s else nan
  | infinity s, finite _ _ _ => infinity s
  | finite _ _ _, infinity t => infinity t
  | finite s m e, finite t n f =>
    let g := min e f
    let k := mantissaAt g s m e + mantissaAt g t n f
    let (a, b) := ratio k.natAbs g
    ofRatio (if k = 0 then s && t else k < 0) a b

/-- The number with the opposite sign. -/
def neg : Binary64 → Binary64
  | finite s m e => finite (!s) m e
  | infinity s => infinity (!s)
  | nan => nan

/-- `true` for zeros of either sign. -/
def isZero : Binary64 → Bool
  | finite _ m _ => m == 0
  | _ => false

/-- The integer that the number is equal to, if there is one. -/
def toInt? : Binary64 → Option Int
  | finite s m e =>
    let (a, b) := ratio m e
    if a % b = 0 then some (if s then -((a / b : Nat) : Int) else ((a / b : Nat) : Int)) else none
  | _ => none

/-- Integer part and fraction of the absolute value of a finite number. -/
def split (m : Nat) (e : Int) : Nat × Binary64 :=
  let (a, b) := ratio m e
  (a / b, ofRatio false (a % b) b)

/-! ## Decimal text -/

/-- A positive number as digits `d` and the exponent of the first of them. -/
structure Digits where
  digits : Nat
  exponent : Int

/-- The exponent of the greatest power of ten that is at most `n / d`, for quotients of at least
`10 ^ (-400)`. -/
def log10Ratio (n d : Nat) : Int :=
  ((Digit.text (n * Nat.pow 10 400 / d)).length : Int) - 401

/-- Whether the decimal `c * 10 ^ p` rounds to `m * 2 ^ e`: it lies between the midpoints to the
neighbours, which count if the mantissa is even. -/
def roundsTo (m : Nat) (e : Int) (c : Nat) (p : Int) : Bool :=
  let even := m % 2 == 0
  let narrow := m == 0x10000000000000 && e > -1074
  let (vn, vd) := ratio 1 (e - 2)
  let low := if narrow then 4 * m - 1 else 4 * m - 2
  let high := 4 * m + 2
  let (cn, cd) := if p ≥ 0 then (c * Nat.pow 10 p.toNat, 1) else (c, Nat.pow 10 (-p).toNat)
  let x := cn * vd
  let a := low * vn * cd
  let b := high * vn * cd
  if even then a ≤ x && x ≤ b else a < x && x < b

/-- Of the multiples of `10 ^ p`, the one nearest to `m * 2 ^ e` that reads back as it, halves to
the even multiple. -/
def onGrid? (m : Nat) (e p : Int) : Option Nat :=
  let (a, b) := ratio m e
  let (a, b) := if p ≥ 0 then (a, b * Nat.pow 10 p.toNat) else (a * Nat.pow 10 (-p).toNat, b)
  let below := a / b
  let nearest := divNearest a b
  let other := if nearest = below then below + 1 else below
  if roundsTo m e nearest p then some nearest
  else if roundsTo m e other p then some other
  else none

/-- The fewest digits that read back as the positive number `m * 2 ^ e`, nearest to it. -/
def shortest (m : Nat) (e : Int) : Digits :=
  let (a, b) := ratio m e
  let k := log10Ratio a b
  let found : Option (Nat × Nat) := (List.range 17).findSome? fun (n : Nat) =>
    (onGrid? m e (k - (n : Int))).map fun d => (d, n + 1)
  let (d, n) := found.getD (0, 1)
  if d = Nat.pow 10 n then ⟨1, k + 1⟩ else ⟨d, k⟩

/-- How numbers are written. -/
structure Style where
  /-- The least exponent of the first digit that is written without an exponent part. -/
  lowest : Int
  /-- The greatest exponent of the first digit that is written without an exponent part. -/
  highest : Int
  /-- The least number of digits of the exponent. -/
  exponentDigits : Nat
  infinityName : String
  nanName : String

/-- Digits before and after the point, for the exponent `k` of the first digit. -/
def positional (ds : List Char) (k : Int) : List Char :=
  if k < 0 then '0' :: '.' :: List.replicate ((-k).toNat - 1) '0' ++ ds
  else
    let n := k.toNat + 1
    let whole := ds.take n ++ List.replicate (n - ds.length) '0'
    let part := ds.drop n
    whole ++ '.' :: (if part.isEmpty then ['0'] else part)

/-- One digit before the point and an exponent part. -/
def scientific (style : Style) (ds : List Char) (k : Int) : List Char :=
  let exponent := Digit.text k.natAbs
  let exponent := List.replicate (style.exponentDigits - exponent.length) '0' ++ exponent
  let part := ds.drop 1
  ds.take 1 ++ (if part.isEmpty then [] else '.' :: part)
    ++ 'e' :: (if k < 0 then '-' else '+') :: exponent

/-- The shortest text that reads back as the number. -/
def text (style : Style) (x : Binary64) : String :=
  let sign := fun (s : Bool) => if s then "-" else ""
  match x with
  | nan => style.nanName
  | infinity s => sign s ++ style.infinityName
  | finite s m e =>
    if m = 0 then sign s ++ "0.0"
    else
      let d := shortest m e
      let ds := ((Digit.text d.digits).reverse.dropWhile (· == '0')).reverse
      sign s ++ String.ofList
        (if style.lowest ≤ d.exponent ∧ d.exponent ≤ style.highest then positional ds d.exponent
        else scientific style ds d.exponent)

end Binary64

end AcmeClient
