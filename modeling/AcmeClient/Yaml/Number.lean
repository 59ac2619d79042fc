import AcmeClient.Error
import AcmeClient.Json.Reader
import AcmeClient.Text.Blank

/-!
# Numbers in settings

Integers are written in base 2, 8, 10, 16 or in sixties, fractions in base 10 or in sixties.
Underscores between digits do not count.

* `Yaml.Number.isInteger`, `Yaml.Number.isFraction`: plain scalars that are numbers;
* `Yaml.Number.integer`, `Yaml.Number.fraction`: the number of a text.
-/

namespace AcmeClient

namespace Yaml

namespace Number

/-- A digit or an underscore. -/
def isFigure (c : Char) : Bool :=
  c.isDigit || c == '_'

/-- A text without a sign in front. -/
def unsigned (s : List Char) : List Char :=
  if s.head? = some '-' ∨ s.head? = some '+' then s.drop 1 else s

/-- A number of minutes or seconds behind a colon. -/
def isSixtieth : List Char → Bool
  | [a] => a.isDigit
  | [a, b] => '0' ≤ a && a ≤ '5' && b.isDigit
  | _ => false

/-- Digits and underscores behind a digit. -/
def isRun (s : List Char) : Bool :=
  (s.head?.map Char.isDigit).getD false && s.all isFigure

/-- Digits and underscores behind a digit other than zero. -/
def isCount (s : List Char) : Bool :=
  isRun s && s.head? != some '0'

/-- Not empty and made of some characters. -/
def consistsOf (p : Char → Bool) (s : List Char) : Bool :=
  !s.isEmpty && s.all p

/-- The text is an integer without its sign. -/
def isNatural (s : List Char) : Bool :=
  match s with
  | '0' :: 'b' :: r => consistsOf (fun c => c == '0' || c == '1' || c == '_') r
  | '0' :: 'x' :: r => consistsOf (fun c => (Digit.hex? c).isSome || c == '_') r
  | '0' :: r => r.all fun c => ('0' ≤ c && c ≤ '7') || c == '_'
  | _ =>
    match Text.splitOn (· == ':') s with
    | first :: sixtieths => isCount first && sixtieths.all isSixtieth
    | [] => false

/-- A plain scalar is an integer. -/
def isInteger (s : List Char) : Bool :=
  isNatural (unsigned s)

/-- An exponent part with a sign, or nothing. -/
def isExponent (s : List Char) : Bool :=
  match s with
  | [] => true
  | e :: sign :: ds => (e == 'e' || e == 'E') && (sign == '+' || sign == '-') && consistsOf Char.isDigit ds
  | _ => false

/-- The text is a fraction in base 10 without its sign; a whole part may be missing if `bare` is
set. -/
def isDecimal (bare : Bool) (s : List Char) : Bool :=
  let whole := s.takeWhile (· ≠ '.')
  match s.dropWhile (· ≠ '.') with
  | '.' :: r =>
    let part := r.takeWhile isFigure
    isExponent (r.dropWhile isFigure) && (isRun whole || (bare && whole.isEmpty && isRun part))
  | _ => false

/-- The text is a fraction in sixties without its sign. -/
def isSexagesimal (s : List Char) : Bool :=
  let whole := s.takeWhile (· ≠ '.')
  match s.dropWhile (· ≠ '.') with
  | '.' :: r =>
    r.all isFigure && match Text.splitOn (· == ':') whole with
      | first :: second :: sixtieths => isRun first && (second :: sixtieths).all isSixtieth
      | _ => false
  | _ => false

/-- A plain scalar is a fraction. -/
def isFraction (s : List Char) : Bool :=
  let u := unsigned s
  isDecimal (u.length == s.length) u || isSexagesimal u
    || [".inf", ".Inf", ".INF"].contains (String.ofList u)
    || [".nan", ".NaN", ".NAN"].contains (String.ofList s)

/-! ## Values -/

/-- The error for a text that is no number. -/
def noNumber : Error :=
  .plain .value "not a number"

/-- The error for a sign without number. -/
def noDigits : Error :=
  .plain .noPosition "no digits"

/-- The value of a digit in a base up to 16. -/
def digitIn? (base : Nat) (c : Char) : Option Nat :=
  match (Digit.value? c).or (Digit.hex? c) with
  | some d => if d < base then some d else none
  | none => none

/-- The mark of a base in front of digits. -/
def marks (base : Nat) : List (List Char) :=
  if base = 2 then [['0', 'b'], ['0', 'B']]
  else if base = 8 then [['0', 'o'], ['0', 'O']]
  else if base = 16 then [['0', 'x'], ['0', 'X']]
  else []

/-- The digits behind the mark of a base. -/
def unmarked (base : Nat) (s : List Char) : List Char :=
  if (marks base).contains (s.take 2) ∧ s.length > 2 then s.drop 2 else s

/-- The number written by digits of a base; in base 10 their number is limited. -/
def natural (base : Nat) (s : List Char) : Except Error Nat :=
  let ds := unmarked base s
  if ds.isEmpty ∨ (base = 10 ∧ ds.length > Json.digitLimit) then .error noNumber
  else
    match ds.mapM (digitIn? base) with
    | some xs => .ok (xs.foldl (fun n d => n * base + d) 0)
    | none => .error noNumber

/-- The integer of a text with optional blanks and sign. -/
def signedIn (base : Nat) (s : List Char) : Except Error Int := do
  let s := Text.trim s
  let n ← natural base (unsigned s)
  .ok (if s.head? = some '-' then -(n : Int) else n)

/-- The number of a text without sign. -/
def magnitude (s : List Char) : Except Error Int :=
  match s with
  | [] => .error noDigits
  | ['0'] => .ok 0
  | '0' :: 'b' :: r => signedIn 2 r
  | '0' :: 'x' :: r => signedIn 16 r
  | '0' :: r => signedIn 8 ('0' :: r)
  | _ =>
    if s.contains ':' then do
      let parts ← (Text.splitOn (· == ':') s).mapM (signedIn 10)
      .ok (parts.foldl (fun n d => n * 60 + d) 0)
    else signedIn 10 s

/-- The integer of a text. -/
def integer (s : List Char) : Except Error Int := do
  let s := s.filter (· ≠ '_')
  let n ← magnitude (unsigned s)
  .ok (if s.isEmpty then 0 else if s.head? = some '-' then -n else n)

/-- A letter in lower case. -/
def lower (s : List Char) : List Char :=
  s.map Char.toLower

/-- The exponent behind its letter. -/
def exponent? (s : List Char) : Option Int := do
  let ds := unsigned s
  let n ← Digit.number? ds
  some (if s.head? = some '-' then -(n : Int) else n)

/-- The number of digits with an optional point and exponent, in lower case. -/
def decimal? (negative : Bool) (s : List Char) : Option Binary64 := do
  let mantissa := s.takeWhile (· ≠ 'e')
  let e ← match s.dropWhile (· ≠ 'e') with
    | [] => some 0
    | _ :: r => exponent? r
  let whole := mantissa.takeWhile (· ≠ '.')
  let part := (mantissa.dropWhile (· ≠ '.')).drop 1
  let n ← Digit.number? (whole ++ part)
  some (Binary64.ofDecimal negative n (e - part.length))

/-- The fraction of a text in base 10 with optional blanks and sign, in lower case. -/
def signedDecimal (s : List Char) : Except Error Binary64 :=
  let s := Text.trim s
  let negative := s.head? == some '-'
  let u := unsigned s
  if ["inf", "infinity"].contains (String.ofList u) then .ok (.infinity negative)
  else if u = "nan".toList then .ok .nan
  else
    match decimal? negative u with
    | some x => .ok x
    | none => .error noNumber

/-- The sum of numbers of which each counts sixty times as much as the one behind it; they are given
last one first. -/
def sixties : Nat → List Binary64 → Binary64 → Binary64
  | _, [], acc => acc
  | base, x :: xs, acc => sixties (base * 60) xs (acc.add (x.mul (Binary64.ofInt base)))

/-- The fraction of a text. -/
def fraction (s : List Char) : Except Error Binary64 := do
  let s := lower (s.filter (· ≠ '_'))
  let negative := s.head? == some '-'
  let u := unsigned s
  if s.isEmpty then .error noDigits
  else if u = ".inf".toList then .ok (.infinity negative)
  else if u = ".nan".toList then .ok .nan
  else
    let x ←
      if u.contains ':' then do
        let parts ← (Text.splitOn (· == ':') u).mapM signedDecimal
        .ok (sixties 1 parts.reverse (Binary64.ofInt 0))
      else signedDecimal u
    .ok (if negative then x.neg else x)

end Number

end Yaml

end AcmeClient
